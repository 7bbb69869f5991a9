import CMsgQueue.Store.Record

/-!
# Key compaction

A payload may carry a key: the bytes `CMQK`, the key length, the key, and then the value, which is
empty in a tombstone.  `cmq_filestore_compact_keys` keeps the last record of each key in the
archive; `cmq_filestore_key_dirty` counts what it would drop.
-/

namespace CMsgQueue.Store

/-- `CMQ_FS_KEY_MAGIC`. -/
def cmqFsKeyMagic : Bytes := cstr "CMQK"
/-- `CMQ_FS_KEY_MAX`. -/
def cmqFsKeyMax : Nat := 256
/-- `CMQ_FS_KEYCOMPACT_MAX_RECS`. -/
def cmqFsKeycompactMaxRecs : Nat := 262144

/-- A data file and its index. -/
structure Files where
  data : File
  idx : File
  deriving DecidableEq

def Files.empty : Files := ⟨.empty, .empty⟩

/-- The pair `prefix.data.1` and `prefix.idx.1`, with `fs_mtime_ms` of the first. -/
structure Archive where
  files : Files
  mtimeMs : Nat
  deriving DecidableEq

def fsMtimeMs (writtenMs : Nat) : Nat := writtenMs / 1000 * 1000

/-- `cmq_filestore_key_encode` into a buffer of `outSz` bytes. -/
def cmqFilestoreKeyEncode (outSz : Nat) (key val : Bytes) : Option Bytes :=
  if key.length = 0 ∨ key.length > cmqFsKeyMax then none
  else if outSz < 6 ∨ key.length > outSz - 6 then none
  else if val.length > outSz - 6 - key.length then none
  else some (cmqFsKeyMagic ++ (putLe 2 key.length ++ (key ++ val)))

/-- `cmq_filestore_key_decode`: the key and the value of a keyed payload. -/
def cmqFilestoreKeyDecode (payload : Bytes) : Option (Bytes × Bytes) :=
  if payload.length < 6 then none
  else if payload.take 4 ≠ cmqFsKeyMagic then none
  else
    let klen := getLe ((payload.drop 4).take 2)
    if klen = 0 ∨ klen > cmqFsKeyMax ∨ klen > payload.length - 6 then none
    else some ((payload.drop 6).take klen, payload.drop (6 + klen))

/-- `kc_rec_t`; the key is there if the record is keyed. -/
structure KcRec where
  off : Nat
  len : Nat
  key : Option Bytes
  tombstone : Bool
  keep : Bool
  deriving DecidableEq

/-- The entry of `keycompact_load` for the payload at an offset. -/
def keycompactRec (off : Nat) (buf : Bytes) : KcRec :=
  match cmqFilestoreKeyDecode buf with
  | none => ⟨off, buf.length, none, false, false⟩
  | some (key, val) => ⟨off, buf.length, some key, val.length == 0, false⟩

/-- One round of `keycompact_load`. -/
def keycompactLoadOne (files : Files) (i : Nat) : Option KcRec := do
  let ib ← files.idx.readAt (i * 8) 8
  let record ← copyRecord files.data (getLe ib)
  return keycompactRec (getLe ib) record.2

/-- `keycompact_load`. -/
def keycompactLoad (files : Files) : Option (List KcRec) :=
  if files.idx.size % 8 ≠ 0 then none
  else if files.idx.size / 8 > cmqFsKeycompactMaxRecs then none
  else (List.range (files.idx.size / 8)).mapM (keycompactLoadOne files)

/-- `keep_young`: the archive is younger than the time to live of its tombstones. -/
def keepYoung (ttlMs mtimeMs nowMs : Nat) : Bool :=
  0 < ttlMs && mtimeMs != 0 && mtimeMs ≤ nowMs && nowMs - mtimeMs < ttlMs

/-- The inner loop of `keycompact_mark`: the last index with the key, from `j` on. -/
def keycompactLast (key : Option Bytes) : (last j : Nat) → List KcRec → Nat
  | last, _, [] => last
  | last, j, other :: rest => keycompactLast key (if other.key = key then j else last) (j + 1) rest

/-- `keycompact_mark`, from index `i` on. -/
def keycompactMark (young : Bool) : Nat → List KcRec → List KcRec
  | _, [] => []
  | i, entry :: rest =>
    let keep :=
      if entry.key = none then true
      else keycompactLast entry.key i (i + 1) rest == i && (!entry.tombstone || young)
    { entry with keep } :: keycompactMark young (i + 1) rest

/-- `keycompact_write`, with the files written so far, the end of the data and the number of
the next record. -/
def keycompactWrite (src : File) : Files → (off seq : Nat) → List KcRec → Option Files
  | written, _, _, [] => some written
  | written, off, seq, entry :: rest =>
    if !entry.keep then keycompactWrite src written off seq rest
    else do
      let hdr ← src.readAt entry.off cmqFsHdrSize
      let buf ← src.readAt (entry.off + cmqFsHdrSize) entry.len
      let data ← written.data.append (renumberHdr hdr seq ++ buf)
      let idx ← written.idx.append (putLe 8 off)
      keycompactWrite src ⟨data, idx⟩ (off + cmqFsHdrSize + entry.len) (seq + 1) rest

/-- `filestore_compact_keys_impl` with the time to live, the clock at the marking and at the
last write: the archive afterwards and whether 0 is returned. -/
def filestoreCompactKeys (ttlMs nowMs writtenMs : Nat) :
    Option Archive → Option Archive × Bool
  | none => (none, true)
  | some archive =>
    match keycompactLoad archive.files with
    | none => (some archive, false)
    | some entries =>
      let marked := keycompactMark (keepYoung ttlMs archive.mtimeMs nowMs) 0 entries
      match keycompactWrite archive.files.data .empty 0 1 marked with
      | none => (some archive, false)
      | some files => (some ⟨files, fsMtimeMs writtenMs⟩, true)

/-- `filestore_key_dirty_impl`: how many records the compaction would drop, and of how many;
`none` is the return value -1. -/
def filestoreKeyDirty (ttlMs nowMs : Nat) : Option Archive → Option (Nat × Nat)
  | none => some (0, 0)
  | some archive =>
    (keycompactLoad archive.files).map fun entries =>
      let marked := keycompactMark (keepYoung ttlMs archive.mtimeMs nowMs) 0 entries
      ((marked.filter fun entry => !entry.keep).length, entries.length)

/-- `filestore_compact_keys_maybe_impl`. -/
def filestoreCompactKeysMaybe (num den ttlMs nowMs writtenMs : Nat) (archive : Option Archive) :
    Option Archive × Bool :=
  if den = 0 then (archive, true)
  else
    match filestoreKeyDirty ttlMs nowMs archive with
    | none => (archive, false)
    | some (drop, total) =>
      if total = 0 then (archive, true)
      else if drop * den < total * num then (archive, true)
      else filestoreCompactKeys ttlMs nowMs writtenMs archive

end CMsgQueue.Store
