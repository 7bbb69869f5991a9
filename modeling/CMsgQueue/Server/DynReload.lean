import CMsgQueue.Enterprise.AclSpec
import CMsgQueue.Util.RchSafe

/-!
# Hot reload of the log level and the ACL

`cmq_reload_apply_dynamic` of `server/cmq_dynreload.c`, and the ACL check of a publish, which
shows what rules are in force.
-/

namespace CMsgQueue.Server

open Enterprise Util

/-- The character `','`. -/
def chComma : UInt8 := 0x2C

/-- The tokens `strtok_r` finds between commas: empty ones are skipped. -/
def csvPatterns (csv : Option Bytes) : List Bytes :=
  ((csv.getD []).splitOn chComma).filter fun token => token ≠ []

/-- `apply_csv`; `granted` tells whether the text and its patterns could be copied. -/
def applyCsv (granted : Bool) (side : AclSide) (acl : CmqAcl) (csv : Option Bytes) :
    CmqAcl × Int :=
  if csv.getD [] = [] then (acl, 0)
  else if granted = false then (acl, -1)
  else aclAddAll side acl (csvPatterns csv)

/-- The fields of a fresh configuration that are applied here. -/
structure DynConfig where
  logLevel : Int
  aclAllow : Option Bytes
  aclDeny : Option Bytes
  deriving DecidableEq

/-- What the reload writes to; `none` stands for a null pointer.  `log` is the level of
the logger. -/
structure DynTarget where
  log : Option Int
  logLevel : Option Int
  aclH : Option (Option Nat)
  heap : RchHeap CmqAcl
  deriving DecidableEq

/-- Which allocations of a reload succeed. -/
structure DynAlloc where
  acl : Bool
  allow : Bool
  deny : Bool
  handle : Bool
  deriving DecidableEq

/-- The ACL check of `handle_publish`: acquire, check, release.  `none` is a use of freed
memory or a read outside a pattern. -/
def aclAdmit (heap : RchHeap CmqAcl) (slot : Option Nat) (subject : Bytes) :
    RchHeap CmqAcl × Option Bool :=
  let acquired := cmqRchAcquire heap slot
  let used := match acquired.2 with
    | none => acquired.1
    | some obj => acquired.1.useObject obj
  let acl := acquired.2.bind fun obj => (used.objects[obj]?).map RchObject.value
  (cmqRchRelease used slot acquired.2,
    if used.faulted then none else cmqAclCheck acl subject)

def probe : Bytes := cstr "_probe_"

/-- The second half of `cmq_reload_apply_dynamic`, once the new ACL is built. -/
def installAcl (granted : Bool) (target : DynTarget) (slot : Option Nat) (newAcl : CmqAcl) :
    DynTarget × Int :=
  -- An empty slot is not probed.
  let probed : RchHeap CmqAcl × Bool := match slot with
    | none => (target.heap, true)
    | some h =>
      let current := aclAdmit target.heap (some h) probe
      (current.1, cmqAclCheck (some newAcl) probe = current.2)
  let target := { target with heap := probed.1 }
  if probed.2 = false then (target, 0)
  else if granted = false then (target, -1)
  else
    let created := cmqRchNew target.heap newAcl
    match slot with
    | none => ({ target with heap := created.1, aclH := some (some created.2) }, 0)
    | some h =>
      let swapped := cmqRchSwap (some h) created.2
      ({ target with
          heap := cmqRchReleaseOwner created.1 swapped.2
          aclH := some swapped.1 }, 0)

/-- `cmq_reload_apply_dynamic`. -/
def cmqReloadApplyDynamic (alloc : DynAlloc) (target : DynTarget)
    (fresh : Option DynConfig) : DynTarget × Int :=
  match fresh, target.logLevel with
  | some fresh, some _ =>
    if fresh.logLevel < 0 ∨ fresh.logLevel > 5 then (target, -1)
    else
      let target := { target with
        log := target.log.map fun _ => fresh.logLevel
        logLevel := some fresh.logLevel }
      match target.aclH with
      | none => (target, 0)
      | some slot =>
        if fresh.aclAllow = none ∧ fresh.aclDeny = none then (target, 0)
        else if alloc.acl = false then (target, -1)
        else
          let allowed := applyCsv alloc.allow .allow cmqAclCreate fresh.aclAllow
          if allowed.2 ≠ 0 then (target, -1)
          else
            let denied := applyCsv alloc.deny .deny allowed.1 fresh.aclDeny
            if denied.2 ≠ 0 then (target, -1)
            else installAcl alloc.handle target slot denied.1
  | _, _ => (target, -1)

def DynTarget.decision (target : DynTarget) (subject : Bytes) : Option Bool :=
  (aclAdmit target.heap (target.aclH.getD none) subject).2

/-- The heap once `n` publishes that had acquired the handle have released it. -/
def leave (h : Nat) : Nat → RchHeap CmqAcl → RchHeap CmqAcl
  | 0, heap => heap
  | n + 1, heap => leave h n (cmqRchRelease heap (some h) (some (heap.ptr h)))

def DynTarget.leave (target : DynTarget) (n : Nat) : DynTarget :=
  { target with heap := (target.aclH.getD none).elim target.heap (Server.leave · n target.heap) }

/-- The publishes that are between acquire and release: all references but the owner's. -/
def DynTarget.readers (target : DynTarget) : Nat :=
  (target.aclH.getD none).elim 0 fun h => (target.heap.refcount h - 1).toNat

/-- A reload that reports success puts the fresh rules in force, and one that reports
failure changes nothing, also while the publishes in flight leave. -/
structure ReloadSound (target after : DynTarget) (rc : Int) (fresh : DynConfig) : Prop where
  applied : rc = 0 → ∃ acl,
    configuredAcl (csvPatterns fresh.aclAllow) (csvPatterns fresh.aclDeny) = some acl ∧
      ∀ n ≤ target.readers, ∀ subject,
        (after.leave n).decision subject = cmqAclCheck (some acl) subject
  kept : rc = -1 → after.log = target.log ∧ after.logLevel = target.logLevel ∧
    ∀ n ≤ target.readers, ∀ subject, (after.leave n).decision subject = target.decision subject

/-- A handle and its object, both in use. -/
structure HandleLive (heap : RchHeap CmqAcl) (h : Nat) (cell : CmqRch)
    (object : RchObject CmqAcl) : Prop where
  located : heap.handles[h]? = some cell
  kept : cell.frees = 0
  counted : 1 ≤ cell.refcount
  held : heap.objects[cell.ptr]? = some object
  heldKept : object.frees = 0

/-- The slot is empty or holds a live handle. -/
structure SlotLive (heap : RchHeap CmqAcl) (slot : Option Nat) : Prop where
  unfaulted : heap.faulted = false
  live : ∀ h, slot = some h → ∃ cell object, HandleLive heap h cell object

def currentAcl (heap : RchHeap CmqAcl) (slot : Option Nat) : Option CmqAcl :=
  slot.bind fun h => (heap.handles[h]?).bind fun cell =>
    (heap.objects[cell.ptr]?).map RchObject.value

def freshAcl (fresh : DynConfig) : CmqAcl where
  allow := (csvPatterns fresh.aclAllow).map compilePattern
  deny := (csvPatterns fresh.aclDeny).map compilePattern

def CsvFails (granted : Bool) (csv : Option Bytes) : Prop :=
  (csv.getD [] ≠ [] ∧ granted = false) ∨ cmqAclMaxPatterns < (csvPatterns csv).length

def ReloadFails (alloc : DynAlloc) (heap : RchHeap CmqAcl) (slot : Option Nat)
    (fresh : DynConfig) : Prop :=
  alloc.acl = false ∨ CsvFails alloc.allow fresh.aclAllow ∨
    CsvFails alloc.deny fresh.aclDeny ∨
    (alloc.handle = false ∧ (slot = none ∨
      cmqAclCheck (some (freshAcl fresh)) probe = cmqAclCheck (currentAcl heap slot) probe))

/-- The level is refused, or the reload fails with the level already in force, or it attaches rules
to an empty slot. -/
def ReloadWhen (alloc : DynAlloc) (target : DynTarget) (slot : Option Nat)
    (fresh : DynConfig) : Prop :=
  (fresh.logLevel < 0 ∨ fresh.logLevel > 5) ∨
  (ReloadFails alloc target.heap slot fresh ∧ target.logLevel = some fresh.logLevel ∧
    ∀ level, target.log = some level → level = fresh.logLevel) ∨
  (¬ ReloadFails alloc target.heap slot fresh ∧ slot = none)

end CMsgQueue.Server
