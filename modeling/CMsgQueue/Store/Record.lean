import CMsgQueue.Lib.File
import CMsgQueue.Lib.IndexedLog

/-!
# Records of the file store

The record format of `store/cmq_filestore.c`: a header with the magic number, the version,
the sequence number, the length and the CRC32 of the payload, all little-endian, and then
the payload.  The functions that read records check different parts of it.
-/

namespace CMsgQueue.Store

/-- `CMQ_FS_MAGIC`. -/
def cmqFsMagic : Nat := 0xCF510
/-- `CMQ_FS_VERSION`. -/
def cmqFsVersion : Nat := 1
/-- `CMQ_FS_HDR_SIZE`. -/
def cmqFsHdrSize : Nat := 22
def cmqFsMaxLen : Nat := 16 * 1024 * 1024

/-- One byte of `crc32_update`. -/
def crc32Byte (crc : BitVec 32) (byte : UInt8) : BitVec 32 :=
  (List.range 8).foldl
    (fun crc _ => crc >>> 1 ^^^ if crc.getLsbD 0 then 0xEDB88320 else 0)
    (crc ^^^ byte.toBitVec.zeroExtend 32)

/-- `crc32_update`. -/
def crc32Update (crc : BitVec 32) (data : Bytes) : BitVec 32 := data.foldl crc32Byte crc

/-- `crc32_compute`. -/
def crc32Compute (data : Bytes) : BitVec 32 := ~~~ crc32Update 0xFFFFFFFF data

structure FsHdr where
  magic : Nat
  version : Nat
  seq : Nat
  len : Nat
  crc : Nat
  deriving DecidableEq

def putHdr (seq : Nat) (data : Bytes) : Bytes :=
  putLe 4 cmqFsMagic ++ (putLe 2 cmqFsVersion ++
    (putLe 8 seq ++ (putLe 4 data.length ++ putLe 4 (crc32Compute data).toNat)))

def getHdr (hdr : Bytes) : FsHdr where
  magic := getLe (hdr.take 4)
  version := getLe ((hdr.drop 4).take 2)
  seq := getLe ((hdr.drop 6).take 8)
  len := getLe ((hdr.drop 14).take 4)
  crc := getLe ((hdr.drop 18).take 4)

/-- `put_le64(hdr + 6, seq)`. -/
def renumberHdr (hdr : Bytes) (seq : Nat) : Bytes := hdr.take 6 ++ (putLe 8 seq ++ hdr.drop 14)

def badLen (len : Nat) : Bool := len == 0 || cmqFsMaxLen < len

def readHdr (data : File) (offset : Nat) : Option FsHdr :=
  (data.readAt offset cmqFsHdrSize).map getHdr

/-- The part of `filestore_read_impl` behind the index: the record `seq` at an offset.  Its
bounds checks are those of `File.readAt`. -/
def readRecord (data : File) (offset seq : Nat) : Option Bytes := do
  let hdr ← readHdr data offset
  if hdr.magic ≠ cmqFsMagic ∨ hdr.version ≠ cmqFsVersion ∨ hdr.seq ≠ seq then none
  else if badLen hdr.len then none
  else
    let buf ← data.readAt (offset + cmqFsHdrSize) hdr.len
    if (crc32Compute buf).toNat ≠ hdr.crc then none else some buf

/-- The CRC loop of `repair_idx`, in chunks of 8192 bytes; `none` is a short read. -/
def repairCrc (data : File) : (fuel pos left : Nat) → BitVec 32 → Option (BitVec 32)
  | 0, _, _, crc => some crc
  | fuel + 1, pos, left, crc =>
    if left = 0 then some crc
    else
      let count := min left 8192
      match data.readAt pos count with
      | none => none
      | some chunk => repairCrc data fuel (pos + count) (left - count) (crc32Update crc chunk)

/-- The tests of `repair_idx` on a record at an offset. -/
def repairRecord (data : File) (offset seq : Nat) : Bool :=
  match readHdr data offset with
  | none => false
  | some hdr =>
    if hdr.magic ≠ cmqFsMagic ∨ hdr.version ≠ cmqFsVersion then false
    else if hdr.seq ≠ seq ∨ badLen hdr.len then false
    else if offset + cmqFsHdrSize + hdr.len > data.size then false
    else
      match repairCrc data hdr.len (offset + cmqFsHdrSize) hdr.len 0xFFFFFFFF with
      | none => false
      | some crc => (~~~ crc).toNat == hdr.crc

/-- The record at an offset as the compactions read it: header bytes and payload.  They do
not look at its number. -/
def copyRecord (data : File) (offset : Nat) : Option (Bytes × Bytes) := do
  let bytes ← data.readAt offset cmqFsHdrSize
  let hdr := getHdr bytes
  if hdr.magic ≠ cmqFsMagic ∨ hdr.version ≠ cmqFsVersion then none
  else if badLen hdr.len then none
  else
    let buf ← data.readAt (offset + cmqFsHdrSize) hdr.len
    if (crc32Compute buf).toNat ≠ hdr.crc then none else some (bytes, buf)

/-- The record at an offset as `filestore_read_range_impl` reads it. -/
def rangeRecord (data : File) (offset : Nat) : Option Bytes := do
  let hdr ← readHdr data offset
  if hdr.magic ≠ cmqFsMagic then none
  else if badLen hdr.len then none
  else data.readAt (offset + cmqFsHdrSize) hdr.len

end CMsgQueue.Store
