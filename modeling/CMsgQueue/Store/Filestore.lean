import CMsgQueue.Store.KeyCompact

/-!
# The file store

`store/cmq_filestore.c`.  A disk holds the live pair of files and the archived one.  The handle
caches the end of both files; the largest value of its type says that it does not know them.
Calls on files succeed, except for writes past the size a file can have.
-/

namespace CMsgQueue.Store

open IndexedLog

/-- `UINT64_MAX`. -/
def uint64Max : Nat := 2 ^ 64 - 1

structure Disk where
  live : Files
  archive : Option Archive
  deriving DecidableEq

def Disk.empty : Disk := ⟨.empty, none⟩

/-- `struct cmq_filestore`, apart from the asynchronous ring. -/
structure CmqFilestore where
  nextSeq : Nat
  dataEndOff : Nat
  idxEndOff : Nat
  rotateBytes : Nat
  tombstoneTtlMs : Nat
  compactDirtyNum : Nat
  compactDirtyDen : Nat
  deriving DecidableEq

/-- The cell of the index for entry `i`, counted from 0. -/
def idxEntry (idx : File) (i : Nat) : Option Nat := (idx.readAt (i * 8) 8).map getLe

/-- One round of the loop of `repair_idx`. -/
def repairEntry (files : Files) (i : Nat) : Bool :=
  (idxEntry files.idx i).any fun offset => repairRecord files.data offset (i + 1)

/-- `repair_idx`: the files afterwards and the number of records. -/
def repairIdx (files : Files) : Files × Nat :=
  let idx := files.idx.truncate (files.idx.size - files.idx.size % 8)
  let files := { files with idx }
  let valid := leading (repairEntry files) (idx.size / 8) 0
  ({ files with idx := idx.truncate (valid * 8) }, valid)

/-- `truncate_orphan_data`; `none` is the return value -1. -/
def truncateOrphanData (files : Files) (n : Nat) : Option Files :=
  if n = 0 then some { files with data := files.data.truncate 0 }
  else do
    let offset ← idxEntry files.idx (n - 1)
    let hdr ← readHdr files.data offset
    if hdr.magic ≠ cmqFsMagic then some files
    else
      let expect := offset + cmqFsHdrSize + hdr.len
      if fileLimit ≤ expect ∨ files.data.size ≤ expect then some files
      else some { files with data := files.data.truncate expect }

/-- The handle of `cmq_filestore_create`, which was zeroed; so both cached ends are 0. -/
def CmqFilestore.opened (n : Nat) : CmqFilestore := ⟨n + 1, 0, 0, 0, 0, 0, 0⟩

/-- `cmq_filestore_create` on a directory with live files; `none` is a null pointer. -/
def cmqFilestoreCreate (files : Files) : Option (Files × CmqFilestore) :=
  let repaired := repairIdx files
  (truncateOrphanData repaired.1 repaired.2).map fun files => (files, .opened repaired.2)

/-- `fs_refresh_next_seq` without truncation. -/
def refreshNextSeq (files : Files) (fs : CmqFilestore) : CmqFilestore :=
  { fs with nextSeq := files.idx.size / 8 + 1 }

/-- `fs_refresh_next_seq` with `may_truncate`. -/
def refreshTruncate (files : Files) : Files :=
  { files with idx := files.idx.truncate (files.idx.size - files.idx.size % 8) }

def coldStart (files : Files) (fs : CmqFilestore) : CmqFilestore :=
  if fs.dataEndOff = uint64Max ∨ fs.idxEndOff = uint64Max then
    { fs with dataEndOff := files.data.size, idxEndOff := files.idx.size }
  else fs

/-- The writes of an append at the cached end: the data, then the index.  `inr` are the
files after a failed write was taken back. -/
def appendWrites (files : Files) (fs : CmqFilestore) (data : Bytes) : Files ⊕ Files :=
  let offset := fs.dataEndOff
  match files.data.append (putHdr fs.nextSeq data ++ data) with
  | none => .inr { files with data := files.data.truncate offset }
  | some written =>
    match files.idx.append (putLe 8 offset) with
    | none => .inr { files with data := written.truncate offset }
    | some idx => .inl ⟨written, idx⟩

/-- The cached ends and the next number after an append of `len` bytes. -/
def advance (fs : CmqFilestore) (len : Nat) : CmqFilestore :=
  { fs with
    nextSeq := fs.nextSeq + 1
    dataEndOff := fs.dataEndOff + cmqFsHdrSize + len
    idxEndOff := fs.idxEndOff + 8 }

def rotates (fs : CmqFilestore) : Bool := fs.rotateBytes != 0 && fs.rotateBytes ≤ fs.dataEndOff

/-- `filestore_rotate_archive_locked` and the key compaction behind it, at a time. -/
def rotateArchive (disk : Disk) (fs : CmqFilestore) (nowMs : Nat) : Disk × CmqFilestore :=
  let archive := some ⟨disk.live, fsMtimeMs nowMs⟩
  let compacted := filestoreCompactKeysMaybe fs.compactDirtyNum fs.compactDirtyDen
    fs.tombstoneTtlMs nowMs nowMs archive
  (⟨.empty, compacted.1⟩, { fs with nextSeq := 1, dataEndOff := 0, idxEndOff := 0 })

structure AppendResult where
  disk : Disk
  fs : CmqFilestore
  /-- The sequence number, if 0 is returned. -/
  seq : Option Nat
  rotated : Bool

/-- `filestore_append_impl`. -/
def filestoreAppend (disk : Disk) (fs : CmqFilestore) (nowMs : Nat) (data : Bytes) :
    AppendResult :=
  if data.length = 0 ∨ data.length > cmqFsMaxLen then ⟨disk, fs, none, false⟩
  else
    let live := refreshTruncate disk.live
    let fs := refreshNextSeq live fs
    if fs.nextSeq = uint64Max then ⟨{ disk with live }, fs, none, false⟩
    else
      let fs := coldStart live fs
      if fs.dataEndOff > uint64Max - cmqFsHdrSize - data.length then
        ⟨{ disk with live }, fs, none, false⟩
      else
        match appendWrites live fs data with
        | .inr live => ⟨{ disk with live }, fs, none, false⟩
        | .inl live =>
          let seq := fs.nextSeq
          let fs := advance fs data.length
          if rotates fs then
            let rotated := rotateArchive { disk with live } fs nowMs
            ⟨rotated.1, rotated.2, some seq, true⟩
          else ⟨{ disk with live }, fs, some seq, false⟩

/-- `cmq_filestore_append_bridge`: the record it appends. -/
def bridgeRecord (topic payload : Bytes) : Bytes :=
  cstr "CMQB" ++ (1 :: (putBe 2 topic.length ++ (topic ++ payload)))

/-- `cmq_filestore_append_bridge`. -/
def cmqFilestoreAppendBridge (disk : Disk) (fs : CmqFilestore) (nowMs : Nat)
    (topic payload : Bytes) : AppendResult :=
  if topic.length = 0 ∨ topic.length > 0xFFFF then ⟨disk, fs, none, false⟩
  else filestoreAppend disk fs nowMs (bridgeRecord topic payload)

def lookupRecord (files : Files) (seq : Nat) : Option Bytes := do
  let offset ← idxEntry files.idx (seq - 1)
  readRecord files.data offset seq

/-- `filestore_read_impl`: the handle afterwards, which has forgotten the ends of the files if
it moved in them, and the record. -/
def filestoreRead (files : Files) (fs : CmqFilestore) (seq : Nat) :
    CmqFilestore × Option Bytes :=
  if seq = 0 then (fs, none)
  else
    let fs := refreshNextSeq files fs
    if seq ≥ fs.nextSeq then (fs, none)
    else ({ fs with dataEndOff := uint64Max, idxEndOff := uint64Max }, lookupRecord files seq)

/-- The most records that `filestore_read_range_impl` reads. -/
def rangeMax : Nat := 65536

/-- The loop of `filestore_read_range_impl` over the cells it read, with the number that each
of them belongs to. -/
def rangeVisits (data : File) (lo n : Nat) (cells : Bytes) : List (Nat × Bytes) :=
  (List.range n).filterMap fun i =>
    (rangeRecord data (getLe ((cells.drop (i * 8)).take 8))).map fun payload => (lo + i, payload)

/-- `filestore_read_range_impl`: the records visited; `none` is the return value -1.  The
arithmetic on sequence numbers wraps. -/
def filestoreReadRange (files : Files) (lo hi : Nat) : Option (List (Nat × Bytes)) :=
  if lo = 0 ∨ hi < lo then none
  else
    let nextSeq := files.idx.size / 8 + 1
    let hi := if hi ≥ nextSeq then nextSeq - 1 else hi
    let n := min ((hi + 2 ^ 64 - lo + 1) % 2 ^ 64) rangeMax
    match files.idx.readAt ((lo - 1) * 8 % 2 ^ 64) (n * 8) with
    | none => some []
    | some cells => some (rangeVisits files.data lo n cells)

/-- `compact_copy_one`: the frame of a record under its new number. -/
def compactCopyOne (files : Files) (oldSeq newSeq : Nat) : Option Bytes := do
  let offset ← idxEntry files.idx (oldSeq - 1)
  let record ← copyRecord files.data offset
  return renumberHdr record.1 newSeq ++ record.2

/-- The copy loop of `filestore_compact_impl` from round `i` on, with the files written so far
and the end of the data. -/
def compactCopy (files : Files) (keepFrom : Nat) :
    (count i : Nat) → Files → (off : Nat) → Option (Files × Nat)
  | 0, _, written, off => some (written, off)
  | count + 1, i, written, off => do
      let copied ← compactCopyOne files (keepFrom + i) (i + 1)
      let data ← written.data.append copied
      let idx ← written.idx.append (putLe 8 off)
      compactCopy files keepFrom count (i + 1) ⟨data, idx⟩ (off + copied.length)

/-- `filestore_compact_impl`: the files, the handle, and whether 0 is returned. -/
def filestoreCompact (files : Files) (fs : CmqFilestore) (retain : Nat) :
    Files × CmqFilestore × Bool :=
  let files := refreshTruncate files
  let fs := refreshNextSeq files fs
  let last := fs.nextSeq - 1
  if retain ≥ last then (files, fs, true)
  else if retain = 0 then
    (⟨files.data.truncate 0, files.idx.truncate 0⟩,
      { fs with nextSeq := 1, dataEndOff := 0, idxEndOff := 0 }, true)
  else
    match compactCopy files (last - retain + 1) retain 0 .empty 0 with
    | none => (files, fs, false)
    | some (written, off) =>
      (written,
        { fs with nextSeq := retain + 1, dataEndOff := off, idxEndOff := retain * 8 }, true)

end CMsgQueue.Store
