import CMsgQueue.Lib.Bytes
import CMsgQueue.Lib.Probe

/-!
# The map from client ids to clients

`cmq_idmap` of `server/cmq_server.c`: open addressing in a table whose capacity is a power of
two.  A loop that does not end within as many steps as there are slots never ends; such a call
has the result `none`.
-/

namespace CMsgQueue.Server

universe u

/-- `CMQ_IDMAP_TOMB`. -/
def cmqIdmapTomb : UInt32 := 0xFFFFFFFF

/-- `cmq_idmap_hash`. -/
def cmqIdmapHash (id : UInt32) : UInt32 :=
  let id := id ^^^ (id >>> 16)
  let id := id * 0x7feb352d
  let id := id ^^^ (id >>> 15)
  let id := id * 0x846ca68b
  id ^^^ (id >>> 16)

/-- `cmq_idmap_t` with clients of type `γ`. -/
structure CmqIdmap (γ : Type u) where
  keys : List UInt32
  vals : List (Option γ)
  cap : Nat
  live : Nat
  tombs : Nat
  deriving DecidableEq

variable {γ : Type u}

/-- `cmq_idmap_create` doubles the capacity up to the one asked for.  From 16 on that takes less
than 64 rounds. -/
def idmapCapLoop (cap : Nat) : Nat → Nat → Option Nat
  | 0, _ => none
  | fuel + 1, c =>
    if c < cap then
      if c > sizeMax / 2 then none else idmapCapLoop cap fuel (c * 2)
    else some c

/-- `cmq_idmap_create`; `alloc` tells if the allocations succeed. -/
def cmqIdmapCreate (cap : Nat) (alloc : Bool) : Option (CmqIdmap γ) :=
  let cap := if cap < 16 then 16 else cap
  match idmapCapLoop cap 64 16 with
  | none => none
  | some c =>
    if c > sizeMax / 4 ∨ c > sizeMax / 8 ∨ alloc = false then none
    else some ⟨List.replicate c 0, List.replicate c none, c, 0, 0⟩

namespace CmqIdmap

def key (m : CmqIdmap γ) (i : Nat) : UInt32 := m.keys.getD i 0

def val (m : CmqIdmap γ) (i : Nat) : Option γ := m.vals.getD i none

def store (m : CmqIdmap γ) (i : Nat) (id : UInt32) (c : Option γ) : CmqIdmap γ :=
  { m with keys := m.keys.set i id, vals := m.vals.set i c }

def first (m : CmqIdmap γ) (id : UInt32) : Nat := (cmqIdmapHash id).toNat &&& (m.cap - 1)

def next (m : CmqIdmap γ) (i : Nat) : Nat := (i + 1) &&& (m.cap - 1)

/-- The loop of `cmq_idmap_rehash` up to an empty slot. -/
def emptyLoop (m : CmqIdmap γ) : Nat → Nat → Option Nat
  | 0, _ => none
  | fuel + 1, j => if m.key j = 0 then some j else m.emptyLoop fuel (m.next j)

/-- The loop of `cmq_idmap_rehash` over the old slots. -/
def rehashLoop (m : CmqIdmap γ) : List (UInt32 × Option γ) → Option (CmqIdmap γ)
  | [] => some m
  | (k, v) :: rest =>
    if k = 0 ∨ k = cmqIdmapTomb then m.rehashLoop rest
    else
      match m.emptyLoop m.cap (m.first k) with
      | none => none
      | some j => rehashLoop { m.store j k v with live := m.live + 1 } rest

/-- `cmq_idmap_rehash`. -/
def cmqIdmapRehash (m : CmqIdmap γ) (ncap : Nat) (alloc : Bool) : Option (CmqIdmap γ × Int) :=
  if alloc then
    (rehashLoop ⟨List.replicate ncap 0, List.replicate ncap none, ncap, 0, 0⟩
      (m.keys.zip m.vals)).map fun m => (m, 0)
  else some (m, -1)

def fill (m : CmqIdmap γ) (i : Nat) (id : UInt32) (c : γ) : CmqIdmap γ :=
  { m.store i id (some c) with
    live := m.live + 1
    tombs := if m.key i = cmqIdmapTomb then m.tombs - 1 else m.tombs }

variable [DecidableEq γ]

/-- The loop of `cmq_idmap_put`. -/
def putLoop (m : CmqIdmap γ) (id : UInt32) (c : γ) :
    Nat → Nat → Option Nat → Option (CmqIdmap γ × Int)
  | 0, _, _ => none
  | fuel + 1, i, tomb =>
    if m.key i = id then
      -- An id in use is never given to another client.
      some (m, if m.val i = some c then 0 else -1)
    else if m.key i = cmqIdmapTomb then m.putLoop id c fuel (m.next i) (tomb.or (some i))
    else if m.key i = 0 then some (m.fill (tomb.getD i) id c, 0)
    else m.putLoop id c fuel (m.next i) tomb

/-- `cmq_idmap_put`. -/
def cmqIdmapPut (m : CmqIdmap γ) (id : UInt32) (c : Option γ) (alloc : Bool) :
    Option (CmqIdmap γ × Int) :=
  match c with
  | none => some (m, -1)
  | some c =>
    if id = 0 ∨ id = cmqIdmapTomb then some (m, -1)
    else if (m.live + m.tombs + 1) * 2 ≥ m.cap then
      if m.cap > sizeMax / 2 then some (m, -1)
      else if m.cap * 2 > sizeMax / 4 ∨ m.cap * 2 > sizeMax / 8 then some (m, -1)
      else
        match m.cmqIdmapRehash (m.cap * 2) alloc with
        | none => none
        | some (m, status) =>
          if status ≠ 0 then some (m, -1) else m.putLoop id c m.cap (m.first id) none
    else m.putLoop id c m.cap (m.first id) none

/-- The loop of `cmq_idmap_get` and of `cmq_idmap_del` up to the slot of an id. -/
def findLoop (m : CmqIdmap γ) (id : UInt32) (start : Nat) : Nat → Nat → Option (Option Nat)
  | 0, _ => none
  | fuel + 1, i =>
    if m.key i = 0 then some none
    else if m.key i = id then some (some i)
    else if m.next i = start then some none
    else m.findLoop id start fuel (m.next i)

/-- `cmq_idmap_get`. -/
def cmqIdmapGet (m : CmqIdmap γ) (id : UInt32) : Option (Option γ) :=
  if m.cap = 0 ∨ id = 0 ∨ id = cmqIdmapTomb then some none
  else (m.findLoop id (m.first id) m.cap (m.first id)).map fun found => found.bind m.val

def bury (m : CmqIdmap γ) (i : Nat) : CmqIdmap γ :=
  { m.store i cmqIdmapTomb none with live := m.live - 1, tombs := m.tombs + 1 }

/-- The end of `cmq_idmap_del`: a table with many tombstones and few ids is made smaller; if
that fails, it stays. -/
def shrink (m : CmqIdmap γ) (alloc : Bool) : Option (CmqIdmap γ) :=
  if m.tombs > m.cap / 4 ∧ m.live * 4 < m.cap ∧ m.cap > 16 then
    (m.cmqIdmapRehash (m.cap / 2) alloc).map Prod.fst
  else some m

/-- `cmq_idmap_del`. -/
def cmqIdmapDel (m : CmqIdmap γ) (id : UInt32) (alloc : Bool) : Option (CmqIdmap γ) :=
  if m.cap = 0 ∨ id = 0 ∨ id = cmqIdmapTomb then some m
  else
    match m.findLoop id (m.first id) m.cap (m.first id) with
    | none => none
    | some none => some m
    | some (some i) => (m.bury i).shrink alloc

end CmqIdmap

/-- A call, with what the allocator does during it. -/
inductive IdmapOp (γ : Type u) where
  | put (id : UInt32) (c : Option γ) (alloc : Bool)
  | get (id : UInt32)
  | del (id : UInt32) (alloc : Bool)
  deriving DecidableEq

/-- What a call returns. -/
inductive IdmapAnswer (γ : Type u) where
  | status (code : Int)
  | client (c : Option γ)
  | done
  deriving DecidableEq

/-- One call; `none` if it does not return. -/
def CmqIdmap.call [DecidableEq γ] (m : CmqIdmap γ) :
    IdmapOp γ → Option (CmqIdmap γ × IdmapAnswer γ)
  | .put id c alloc => (m.cmqIdmapPut id c alloc).map fun r => (r.1, .status r.2)
  | .get id => (m.cmqIdmapGet id).map fun c => (m, .client c)
  | .del id alloc => (m.cmqIdmapDel id alloc).map fun m => (m, .done)

end CMsgQueue.Server
