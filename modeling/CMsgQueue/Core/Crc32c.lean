import CMsgQueue.Proto.Frame

/-!
# Checksums

CRC32C as `core/cmq_crc32c.c` computes it, one byte at a time.  The processor instructions
that take eight bytes at once are specified as eight such steps.
-/

namespace CMsgQueue.Crc32c

open Proto

/-- `CMQ_CRC32C_POLY`. -/
def cmqCrc32cPoly : BitVec 32 := 0x82F63B78

/-- One byte of `crc32c_tail`. -/
def crc32cByte (crc : BitVec 32) (byte : UInt8) : BitVec 32 :=
  (List.range 8).foldl
    (fun crc _ => crc >>> 1 ^^^ if crc.getLsbD 0 then cmqCrc32cPoly else 0)
    (crc ^^^ byte.toBitVec.zeroExtend 32)

/-- `cmq_crc32c_raw`. -/
def cmqCrc32cRaw (crc : BitVec 32) (data : Bytes) : BitVec 32 := data.foldl crc32cByte crc

/-- `cmq_crc32c`. -/
def cmqCrc32c (crc : BitVec 32) (data : Bytes) : BitVec 32 :=
  if data = [] then crc else ~~~ cmqCrc32cRaw (~~~ crc) data

/-- `cmq_checksum_consume`: the bytes before the trailer, or all of them without the flag;
`none` is the return value -1. -/
def cmqChecksumConsume (flags : UInt8) (wire : Bytes) : Option Bytes :=
  if flags &&& cmqFlagChecksum = 0 then some wire
  else
    let body := wire.take (wire.length - 4)
    match wire.drop (wire.length - 4) with
    | [b0, b1, b2, b3] => if le32 b0 b1 b2 b3 = (cmqCrc32c 0 body).toNat then some body else none
    | _ => none

end CMsgQueue.Crc32c
