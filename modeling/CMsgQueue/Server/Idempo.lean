import CMsgQueue.Lib.Bytes

/-!
# The duplicate window

`server/cmq_idempo.c` remembers, for each of at most 256 producers, the last sequence
number accepted and which of the 64 numbers up to it were.
-/

namespace CMsgQueue.Server

/-- `CMQ_IDEMPO_HDR_LEN`. -/
def cmqIdempoHdrLen : Nat := 16
/-- `CMQ_IDEMPO_PIDS`. -/
def cmqIdempoPids : Nat := 256
/-- `CMQ_IDEMPO_WIN`. -/
def cmqIdempoWin : Nat := 64
/-- `CMQ_IDEMPO_MAGIC`. -/
def cmqIdempoMagic : Bytes := cstr "CMQI"

/-- `cmq_idempo_slot_t`. -/
structure CmqIdempoSlot where
  pid : Nat
  used : Bool
  last : Nat
  bits : BitVec 64
  deriving DecidableEq

/-- `struct cmq_idempo`. -/
structure CmqIdempo where
  slots : List CmqIdempoSlot
  deriving DecidableEq

/-- `cmq_idempo_create`. -/
def cmqIdempoCreate : CmqIdempo where
  slots := List.replicate cmqIdempoPids ⟨0, false, 0, 0⟩

/-- `cmq_idempo_encode` into a buffer of `cap` bytes; `none` is the return value -1. -/
def cmqIdempoEncode (cap pid seq : Nat) : Option Bytes :=
  if cap < cmqIdempoHdrLen ∨ pid = 0 then none
  else some (cmqIdempoMagic ++ putBe 4 pid ++ putBe 8 seq)

/-- `cmq_idempo_parse`. -/
def cmqIdempoParse (hdr : Bytes) : Option (Nat × Nat) :=
  if hdr.length < cmqIdempoHdrLen then none
  else if hdr.take 4 ≠ cmqIdempoMagic then none
  else
    let pid := getBe ((hdr.drop 4).take 4)
    if pid = 0 then none else some (pid, getBe ((hdr.drop 8).take 8))

/-- The slot that probe `i` of `idempo_find` looks at. -/
def idempoProbe (pid i : Nat) : Nat := (pid * 2654435761 % 2 ^ 32 + i) % 2 ^ 32 % cmqIdempoPids

/-- The loop of `idempo_find`: the slot of the producer, else the first free one. -/
def idempoFindLoop (t : CmqIdempo) (pid : Nat) : List Nat → Option Nat → Option Nat
  | [], empty => empty
  | i :: probes, empty =>
    match t.slots[idempoProbe pid i]? with
    | none => idempoFindLoop t pid probes empty
    | some slot =>
      if slot.used = true ∧ slot.pid = pid then some (idempoProbe pid i)
      else
        idempoFindLoop t pid probes
          (if slot.used = false ∧ empty = none then some (idempoProbe pid i) else empty)

/-- `idempo_find` with `alloc` set; `none` is the return value -2. -/
def idempoFind (t : CmqIdempo) (pid : Nat) : Option Nat :=
  idempoFindLoop t pid (List.range cmqIdempoPids) none

/-- What `cmq_idempo_check` does with the slot it found. -/
def idempoSlotCheck (slot : CmqIdempoSlot) (pid seq : Nat) : CmqIdempoSlot × Int :=
  if slot.used = false then (⟨pid, true, seq, 1⟩, 1)
  else if seq > slot.last then
    let d := seq - slot.last
    let bits := if d ≥ cmqIdempoWin then 1 else slot.bits <<< d ||| 1
    ({ slot with last := seq, bits }, 1)
  else
    let d := slot.last - seq
    if d ≥ cmqIdempoWin then (slot, 0)
    else
      let mask := (1 : BitVec 64) <<< d
      if slot.bits &&& mask ≠ 0 then (slot, 0)
      else ({ slot with bits := slot.bits ||| mask }, 1)

/-- `cmq_idempo_check`: 1 is new, 0 is a duplicate or too old, -2 is a full table. -/
def cmqIdempoCheck (t : CmqIdempo) (pid seq : Nat) : CmqIdempo × Int :=
  if pid = 0 then (t, -1)
  else
    match idempoFind t pid with
    | none => (t, -2)
    | some idx =>
      match t.slots[idx]? with
      | none => (t, -2)
      | some slot =>
        let checked := idempoSlotCheck slot pid seq
        ({ slots := t.slots.set idx checked.1 }, checked.2)

end CMsgQueue.Server
