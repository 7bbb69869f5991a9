import CMsgQueue.Lib.Runs

/-!
# Refcounted handles

The handles of `util/cmq_rch.h`, and the threads that use them.  Every atomic operation is one
step of one thread.  Memory is never reused: a handle or an object is named by the order of its
allocation, and its cell counts how often it was freed.
-/

namespace CMsgQueue.Util

universe u

variable {τ : Type u}

/-- `struct cmq_rch`.  `frees` counts the calls of `free` on the handle. -/
structure CmqRch where
  ptr : Nat
  refcount : Int
  frees : Nat
  deriving DecidableEq

/-- An object behind a handle.  `frees` counts the calls of `free_fn` on it. -/
structure RchObject (τ : Type u) where
  value : τ
  frees : Nat
  deriving DecidableEq

/-- Handles and objects by address.  `faulted` records that freed memory was used. -/
structure RchHeap (τ : Type u) where
  handles : List CmqRch
  objects : List (RchObject τ)
  faulted : Bool
  deriving DecidableEq

namespace RchHeap

def handleFreed (heap : RchHeap τ) (h : Nat) : Bool :=
  (heap.handles[h]?).map CmqRch.frees ≠ some 0

def objectFreed (heap : RchHeap τ) (obj : Nat) : Bool :=
  (heap.objects[obj]?).map RchObject.frees ≠ some 0

def useHandle (heap : RchHeap τ) (h : Nat) : RchHeap τ :=
  { heap with faulted := heap.faulted || heap.handleFreed h }

def useObject (heap : RchHeap τ) (obj : Nat) : RchHeap τ :=
  { heap with faulted := heap.faulted || heap.objectFreed obj }

/-- `h->refcount`. -/
def refcount (heap : RchHeap τ) (h : Nat) : Int :=
  ((heap.handles[h]?).map CmqRch.refcount).getD 0

/-- `h->ptr`. -/
def ptr (heap : RchHeap τ) (h : Nat) : Nat :=
  ((heap.handles[h]?).map CmqRch.ptr).getD 0

/-- An atomic store to `h->refcount`. -/
def setRefcount (heap : RchHeap τ) (h : Nat) (count : Int) : RchHeap τ :=
  { heap with
    handles := heap.handles.modify h fun cell => { cell with refcount := count } }

/-- `free(h)`. -/
def freeHandle (heap : RchHeap τ) (h : Nat) : RchHeap τ :=
  { heap with
    handles := heap.handles.modify h fun cell => { cell with frees := cell.frees + 1 } }

/-- `h->free_fn(obj)`. -/
def freeObject (heap : RchHeap τ) (obj : Nat) : RchHeap τ :=
  { heap with
    objects := heap.objects.modify obj fun cell => { cell with frees := cell.frees + 1 } }

end RchHeap

/-- `cmq_rch_new` on an object just built. -/
def cmqRchNew (heap : RchHeap τ) (object : τ) : RchHeap τ × Nat :=
  ({ heap with
      handles := heap.handles ++ [{ ptr := heap.objects.length, refcount := 1, frees := 0 }]
      objects := heap.objects ++ [{ value := object, frees := 0 }] },
    heap.handles.length)

/-- `cmq_rch_swap`: the slot afterwards and the handle returned.  The expected value of
the compare-exchange is the new handle itself. -/
def cmqRchSwap (slot : Option Nat) (newH : Nat) : Option Nat × Option Nat :=
  if slot = some newH then (some newH, some newH) else (slot, slot)

/-- `cmq_rch_acquire`, not interrupted: the object, if the handle is still counted. -/
def cmqRchAcquire (heap : RchHeap τ) (h : Option Nat) : RchHeap τ × Option Nat :=
  match h with
  | none => (heap, none)
  | some h =>
    let old := heap.refcount h
    if old ≤ 0 then (heap.useHandle h, none)
    else ((heap.useHandle h).setRefcount h (old + 1), some (heap.ptr h))

/-- The common body of `cmq_rch_release` and `cmq_rch_release_owner`. -/
def rchDrop (heap : RchHeap τ) (h : Nat) (obj : Option Nat) : RchHeap τ :=
  let prev := heap.refcount h
  let heap := (heap.useHandle h).setRefcount h (prev - 1)
  if prev = 1 then
    let heap := match obj with
      | none => heap
      | some obj => (heap.useObject obj).freeObject obj
    heap.freeHandle h
  else heap

/-- `cmq_rch_release`, not interrupted. -/
def cmqRchRelease (heap : RchHeap τ) (h : Option Nat) (obj : Option Nat) : RchHeap τ :=
  match h with
  | none => heap
  | some h => rchDrop heap h obj

/-- `cmq_rch_release_owner`, not interrupted. -/
def cmqRchReleaseOwner (heap : RchHeap τ) (h : Option Nat) : RchHeap τ :=
  match h with
  | none => heap
  | some h => rchDrop heap h (some (heap.ptr h))

/-- Where a thread stands between two atomic operations. -/
inductive RchPc where
  | idle
  /-- In `cmq_rch_acquire`, called on what the slot held. -/
  | acquire (h : Option Nat)
  /-- The count was loaded and the compare-exchange is next. -/
  | acquireCas (h : Nat) (old : Int)
  /-- The count is taken and `h->ptr` is next. -/
  | acquired (h : Nat)
  /-- Back from `cmq_rch_acquire`, with the handle and the object it returned. -/
  | reading (held : Option (Nat × Nat))
  /-- In `cmq_rch_release`, called on what the slot holds by now. -/
  | release (held : Option (Nat × Nat)) (h : Option Nat)
  /-- The count fell to zero and the object is freed next. -/
  | freeObject (h : Nat) (obj : Option Nat)
  | freeHandle (h : Nat)
  /-- A reloader with a new handle that is about to look at the slot. -/
  | created (h : Nat)
  /-- The slot was empty and the new handle is stored next. -/
  | attach (h : Nat)
  /-- The slot was not empty and `cmq_rch_swap` is next. -/
  | swap (h : Nat)
  /-- In `cmq_rch_release_owner`, called on what the swap returned. -/
  | releaseOwner (h : Option Nat)
  deriving DecidableEq

/-- What a thread does where it has a choice. -/
inductive RchChoice (τ : Type u) where
  | read
  | reload (object : τ)
  | use
  | leave
  deriving DecidableEq

/-- What a call of `cmq_rch_swap` did. -/
structure SwapRecord where
  newH : Nat
  before : Option Nat
  after : Option Nat
  returned : Option Nat
  deriving DecidableEq

/-- The slot, the heap, the swaps made so far and one thread. -/
structure RchLocal (τ : Type u) where
  slot : Option Nat
  heap : RchHeap τ
  swaps : List SwapRecord
  pc : RchPc
  deriving DecidableEq

/-- `atomic_fetch_sub` on the count and the test of its result. -/
def fetchSub (state : RchLocal τ) (h : Nat) (obj : Option Nat) : RchLocal τ :=
  let count := state.heap.refcount h
  { state with
    heap := (state.heap.useHandle h).setRefcount h (count - 1)
    pc := if count = 1 then .freeObject h obj else .idle }

def rchOp (state : RchLocal τ) (choice : RchChoice τ) : RchLocal τ :=
  match state.pc with
  | .idle =>
    match choice with
    | .read => { state with pc := .acquire state.slot }
    | .reload object =>
      let created := cmqRchNew state.heap object
      { state with heap := created.1, pc := .created created.2 }
    | _ => state
  | .acquire none => { state with pc := .reading none }
  | .acquire (some h) =>
    let old := state.heap.refcount h
    { state with
      heap := state.heap.useHandle h
      pc := if old ≤ 0 then .reading none else .acquireCas h old }
  | .acquireCas h old =>
    if state.heap.refcount h = old then
      { state with
        heap := (state.heap.useHandle h).setRefcount h (old + 1)
        pc := .acquired h }
    else { state with heap := state.heap.useHandle h, pc := .acquire (some h) }
  | .acquired h =>
    { state with
      heap := state.heap.useHandle h
      pc := .reading (some (h, state.heap.ptr h)) }
  | .reading held =>
    match choice, held with
    | .use, some (_, obj) => { state with heap := state.heap.useObject obj }
    | .use, none => state
    | _, _ => { state with pc := .release held state.slot }
  | .release _ none => { state with pc := .idle }
  | .release held (some h) => fetchSub state h (held.map Prod.snd)
  | .freeObject h obj =>
    let heap := state.heap.useHandle h
    { state with
      heap := match obj with
        | none => heap
        | some obj => (heap.useObject obj).freeObject obj
      pc := .freeHandle h }
  | .freeHandle h => { state with heap := (state.heap.useHandle h).freeHandle h, pc := .idle }
  | .created h => { state with pc := if state.slot = none then .attach h else .swap h }
  | .attach h => { state with slot := some h, pc := .idle }
  | .swap h =>
    let swapped := cmqRchSwap state.slot h
    { state with
      slot := swapped.1
      swaps := { newH := h, before := state.slot, after := swapped.1,
                 returned := swapped.2 } :: state.swaps
      pc := .releaseOwner swapped.2 }
  | .releaseOwner none => { state with pc := .idle }
  | .releaseOwner (some h) => fetchSub state h (some (state.heap.ptr h))

structure RchSystem (τ : Type u) where
  slot : Option Nat
  heap : RchHeap τ
  swaps : List SwapRecord
  threads : List RchPc
  deriving DecidableEq

/-- A thread takes its next step. -/
structure RchEvent (τ : Type u) where
  thread : Nat
  choice : RchChoice τ
  deriving DecidableEq

namespace RchSystem

def view (system : RchSystem τ) (pc : RchPc) : RchLocal τ where
  slot := system.slot
  heap := system.heap
  swaps := system.swaps
  pc := pc

def step (system : RchSystem τ) (event : RchEvent τ) : RchSystem τ :=
  match system.threads[event.thread]? with
  | none => system
  | some pc =>
    let state := rchOp (system.view pc) event.choice
    { slot := state.slot
      heap := state.heap
      swaps := state.swaps
      threads := system.threads.set event.thread state.pc }

/-- A server started with or without a configured object, and its idle threads. -/
def start (configured : Option τ) (threads : Nat) : RchSystem τ :=
  let empty : RchHeap τ := { handles := [], objects := [], faulted := false }
  { slot := configured.map fun object => (cmqRchNew empty object).2
    heap := configured.elim empty fun object => (cmqRchNew empty object).1
    swaps := []
    threads := List.replicate threads .idle }

def run (configured : Option τ) (threads : Nat) (events : List (RchEvent τ)) :
    RchSystem τ :=
  events.foldl step (start configured threads)

end RchSystem

end CMsgQueue.Util
