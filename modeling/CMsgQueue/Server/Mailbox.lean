import CMsgQueue.Lib.Chain
import CMsgQueue.Lib.Runs

/-!
# The mailbox of a worker

The mailbox functions of `server/cmq_server.c` on the linked list itself: a critical section is
one function, and a result `none` is a walk that leaves the allocated memory or does not end.
Any number of threads push messages; what they do outside the critical sections, the accesses to
the free list among it, are steps of their own.
-/

namespace CMsgQueue.Server

open Chain

universe u

/-- `CMQ_WORKER_MSG_QUEUE_MAX`. -/
def cmqWorkerMsgQueueMax : Nat := 8192
/-- `CMQ_WORKER_TEARDOWN_SLACK`. -/
def cmqWorkerTeardownSlack : Nat := 4096
/-- `CMQ_WORKER_MSG_FREELIST_MAX`. -/
def cmqWorkerMsgFreelistMax : Nat := 64
/-- `CMQ_WORKER_WAKE_BATCH`. -/
def cmqWorkerWakeBatch : Nat := 64

/-- `CMQ_WORKER_MSG_SEND` and `CMQ_WORKER_MSG_TEARDOWN`. -/
inductive WorkerMsgKind where
  | send
  | teardown
  deriving DecidableEq

/-- `cmq_worker_msg_t` without its link.  `payload` is what a SEND carries beside its target.
The `stamp` is not in the source: it numbers the messages in the order in which they are put
into the list. -/
structure CmqWorkerMsg (τ : Type u) where
  targetId : Nat
  targetGen : Nat
  kind : WorkerMsgKind
  payload : Option τ
  stamp : Nat
  deriving DecidableEq

variable {τ : Type u}

def CmqWorkerMsg.aims (m : CmqWorkerMsg τ) (id gen : Nat) : Bool :=
  m.targetId == id && m.targetGen == gen

/-- What the mailbox uses of `cmq_worker_t`, with the memory of the messages. -/
structure CmqWorker (τ : Type u) where
  heap : Heap (CmqWorkerMsg τ)
  msgHead : Option Nat
  msgTail : Option Nat
  msgPending : Nat
  msgFreelist : Option Nat
  msgFreelistCount : Nat
  deriving DecidableEq

namespace CmqWorker

/-- `*pp = next`, where `pp` is the head or the link of a message. -/
def setLink (w : CmqWorker τ) (prev next : Option Nat) : CmqWorker τ :=
  match prev with
  | none => { w with msgHead := next }
  | some p => { w with heap := setNext w.heap p next }

def enqueue (w : CmqWorker τ) (a : Nat) : Option (CmqWorker τ) :=
  match w.msgTail with
  | none => some { w with msgHead := some a, msgTail := some a, msgPending := w.msgPending + 1 }
  | some tail =>
    if (read w.heap tail).isSome then
      some { w with
        heap := setNext w.heap tail (some a)
        msgTail := some a
        msgPending := w.msgPending + 1 }
    else none

/-- Unlinking the message behind `prev`, as `worker_pop_send` and `worker_drain_teardowns`
do. -/
def unlinkAt (w : CmqWorker τ) (prev : Option Nat) (a : Nat) : Option (CmqWorker τ) :=
  match read w.heap a with
  | none => none
  | some cell =>
    let w := w.setLink prev cell.next
    let w := { w with
      heap := setNext w.heap a none
      msgTail := if w.msgTail = some a then prev else w.msgTail
      msgPending := w.msgPending - 1 }
    some (if w.msgHead = none then { w with msgTail := none } else w)

/-- The loop that takes the first message that passes a test out of the list. -/
def dequeueFirst (w : CmqWorker τ) (test : Nat → CmqWorkerMsg τ → Option Bool) :
    Option (CmqWorker τ × Option Nat) :=
  match search w.heap test w.msgHead with
  | none => none
  | some none => some (w, none)
  | some (some (prev, a)) => (w.unlinkAt prev a).map fun w => (w, some a)

/-- `teardown_ahead`: a TEARDOWN for the target stands before the message at `a`. -/
def teardownAhead (w : CmqWorker τ) (a : Nat) (m : CmqWorkerMsg τ) : Option Bool :=
  (search w.heap (fun b t => some (b == a ||
    (t.kind == .teardown && t.aims m.targetId m.targetGen))) w.msgHead).map fun found =>
      found.any fun stop => stop.2 != a

/-- `worker_pop_send`. -/
def workerPopSend (w : CmqWorker τ) : Option (CmqWorker τ × Option Nat) :=
  w.dequeueFirst fun a m =>
    if m.kind = .teardown then some false else (w.teardownAhead a m).map fun ahead => !ahead

/-- The critical section of `worker_drain_teardowns`. -/
def workerPopTeardown (w : CmqWorker τ) (skipId skipGen : Nat) :
    Option (CmqWorker τ × Option Nat) :=
  w.dequeueFirst fun _ m =>
    some (m.kind == .teardown && !(skipId != 0 && m.aims skipId skipGen))

/-- The loop of `worker_wakeup_cb` over at most `n` messages: the last of them, what is behind
it, and how many they are. -/
def batchLoop (heap : Heap (CmqWorkerMsg τ)) :
    Nat → Option Nat → Option Nat → Option (Option Nat × Option Nat × Nat)
  | 0, last, p => some (last, p, 0)
  | _ + 1, last, none => some (last, none, 0)
  | n + 1, _, some a =>
    match read heap a with
    | none => none
    | some cell =>
      (batchLoop heap n (some a) cell.next).map fun found =>
        (found.1, found.2.1, found.2.2 + 1)

def cutBehind (heap : Heap (CmqWorkerMsg τ)) : Option Nat → Heap (CmqWorkerMsg τ)
  | none => heap
  | some last => setNext heap last none

/-- The critical section of `worker_wakeup_cb`, with the first message of the batch. -/
def workerTakeBatch (w : CmqWorker τ) : Option (CmqWorker τ × Option Nat) :=
  (batchLoop w.heap cmqWorkerWakeBatch none w.msgHead).map fun (last, rest, n) =>
    ({ w with
        heap := cutBehind w.heap last
        msgHead := rest
        msgTail := if rest = none then none else w.msgTail
        msgPending := if w.msgPending ≥ n then w.msgPending - n else 0 },
      w.msgHead)

/-- The loop of `worker_purge_send_for_id`, with the message kept last and the messages
dropped. -/
def purgeLoop (id gen : Nat) : Nat → CmqWorker τ → Option Nat → Option Nat →
    List (CmqWorkerMsg τ) → Option (CmqWorker τ × List (CmqWorkerMsg τ))
  | 0, _, _, _, _ => none
  | _ + 1, w, tail, none, dropped => some ({ w with msgTail := tail }, dropped)
  | fuel + 1, w, tail, some a, dropped =>
    match read w.heap a with
    | none => none
    | some cell =>
      if cell.body.kind ≠ .teardown ∧ cell.body.aims id gen then
        let w := w.setLink tail cell.next
        purgeLoop id gen fuel
          { w with heap := free w.heap a, msgPending := w.msgPending - 1 } tail cell.next
          (dropped ++ [cell.body])
      else purgeLoop id gen fuel w (some a) cell.next dropped

/-- `worker_purge_send_for_id`, with the messages it drops. -/
def workerPurgeSendForId (w : CmqWorker τ) (id gen : Nat) :
    Option (CmqWorker τ × List (CmqWorkerMsg τ)) :=
  if id = 0 then some (w, [])
  else purgeLoop id gen (w.heap.length + 1) w none w.msgHead []

/-- The critical section after a failed wakeup: the message is unlinked if its address is found
in the list. -/
def workerUnlinkMsg (w : CmqWorker τ) (a : Nat) : Option (CmqWorker τ × Bool) :=
  match search w.heap (fun b _ => some (b == a)) w.msgHead with
  | none => none
  | some none => some (w, false)
  | some (some (prev, _)) =>
    match read w.heap a with
    | none => none
    | some cell =>
      let w := w.setLink prev cell.next
      some ({ w with
        msgTail := if w.msgTail = some a then prev else w.msgTail
        msgPending := w.msgPending - 1 }, true)

/-- The loop of `worker_push_teardown` over the list. -/
def teardownQueued (w : CmqWorker τ) (id gen : Nat) : Option Bool :=
  (search w.heap (fun _ m => some (m.kind == .teardown && m.aims id gen)) w.msgHead).map
    Option.isSome

end CmqWorker

/-! ## Threads -/

/-- The arguments of `worker_push_msg`. -/
structure SendReq (τ : Type u) where
  targetId : Nat
  targetGen : Nat
  payload : τ
  deriving DecidableEq

def SendReq.msg (req : SendReq τ) : CmqWorkerMsg τ where
  targetId := req.targetId
  targetGen := req.targetGen
  kind := .send
  payload := some req.payload
  stamp := 0

def teardownMsg (id gen : Nat) : CmqWorkerMsg τ where
  targetId := id
  targetGen := gen
  kind := .teardown
  payload := none
  stamp := 0

/-- Where a thread is in `worker_push_msg` or `worker_push_teardown`. -/
inductive PushPc (τ : Type u) where
  | idle
  /-- `worker_push_msg` behind its first critical section. -/
  | alloc (req : SendReq τ)
  /-- The head of the free list is loaded. -/
  | loaded (req : SendReq τ) (n : Nat)
  /-- The link of that head is loaded, too. -/
  | advance (req : SendReq τ) (n : Nat) (next : Option Nat)
  | fill (req : SendReq τ) (n : Nat)
  | ready (n : Nat)
  /-- The message goes back to the free list; `counted` if its length is kept. -/
  | giveBack (n : Nat) (counted : Bool)
  | store (n : Nat) (counted : Bool)
  /-- The message is in the list and the worker is to be woken. -/
  | signal (kind : WorkerMsgKind) (n stamp : Nat)
  | relock (kind : WorkerMsgKind) (n stamp : Nat)
  /-- `worker_push_teardown` behind its first critical section. -/
  | teardownAlloc (id gen : Nat)
  | teardownReady (id gen n : Nat)
  deriving DecidableEq

/-- What the environment decides in a step of a pushing thread. -/
inductive PushChoice (τ : Type u) where
  | send (req : SendReq τ)
  | teardown (id gen : Nat)
  /-- The address that the allocator prefers, if it has memory. -/
  | addr (preferred : Option Nat)
  | ok (success : Bool)
  deriving DecidableEq

/-- Where the worker's thread is.  The pointer is the rest of a batch. -/
inductive WorkerPc where
  | idle
  | batch (p : Option Nat)
  /-- A TEARDOWN that was taken out, before the purge and before the client is closed. -/
  | purge (a : Nat) (rest : Option Nat)
  | close (a : Nat) (rest : Option Nat)
  /-- A TEARDOWN that was handled and goes to the free list. -/
  | recycle (a : Nat) (rest : Option Nat)
  | store (a : Nat) (rest : Option Nat)
  deriving DecidableEq

/-- What the environment decides in a step of the worker's thread. -/
inductive WorkerChoice where
  | wake
  | popSend
  | popTeardown (skipId skipGen : Nat)
  /-- Whether a SEND is delivered or dropped. -/
  | deliver (success : Bool)
  deriving DecidableEq

/-- What happens to messages. -/
inductive MailEntry (τ : Type u) where
  | linked (m : CmqWorkerMsg τ)
  | delivered (m : CmqWorkerMsg τ)
  | dropped (m : CmqWorkerMsg τ)
  | handled (m : CmqWorkerMsg τ)
  /-- Unlinked after a failed wakeup; the push returns -1. -/
  | withdrawn (m : CmqWorkerMsg τ)
  /-- The push of the message with this stamp returns 0. -/
  | accepted (stamp : Nat)
  deriving DecidableEq

/-- A worker with its own thread, the threads that push, and the history of the messages. -/
structure Mailbox (τ : Type u) where
  worker : CmqWorker τ
  pc : WorkerPc
  threads : List (PushPc τ)
  stamp : Nat
  log : List (MailEntry τ)
  faulted : Bool
  deriving DecidableEq

namespace Mailbox

def fault (s : Mailbox τ) : Mailbox τ := { s with faulted := true }

def withHeap (s : Mailbox τ) (heap : Heap (CmqWorkerMsg τ)) : Mailbox τ :=
  { s with worker := { s.worker with heap } }

def note (s : Mailbox τ) (entries : List (MailEntry τ)) : Mailbox τ :=
  { s with log := s.log ++ entries }

/-- Putting the message at `a` into the list. -/
def link (s : Mailbox τ) (a : Nat) : Mailbox τ :=
  match read s.worker.heap a with
  | none => s.fault
  | some cell =>
    let m := { cell.body with stamp := s.stamp }
    match { s.worker with heap := write s.worker.heap a ⟨m, cell.next⟩ }.enqueue a with
    | none => s.fault
    | some worker => { s with worker, stamp := s.stamp + 1, log := s.log ++ [.linked m] }

/-- `msg->next = w->msg_freelist`. -/
def pointToFreelist (s : Mailbox τ) (n : Nat) : Mailbox τ :=
  if (read s.worker.heap n).isSome then
    s.withHeap (setNext s.worker.heap n s.worker.msgFreelist)
  else s.fault

/-- `w->msg_freelist = msg`. -/
def storeFreelist (s : Mailbox τ) (n : Nat) (counted : Bool) : Mailbox τ :=
  { s with worker := { s.worker with
      msgFreelist := some n
      msgFreelistCount :=
        if counted then s.worker.msgFreelistCount + 1 else s.worker.msgFreelistCount } }

/-- One step of a pushing thread that is at `pc`, with where it is afterwards. -/
def pushStep (s : Mailbox τ) (pc : PushPc τ) (choice : PushChoice τ) : Mailbox τ × PushPc τ :=
  match pc, choice with
  | .idle, .send req =>
    if s.worker.msgPending ≥ cmqWorkerMsgQueueMax then (s, .idle) else (s, .alloc req)
  | .idle, .teardown id gen =>
    match s.worker.teardownQueued id gen with
    | none => (s.fault, .idle)
    | some true => (s, .idle)
    | some false =>
      if s.worker.msgPending ≥ cmqWorkerMsgQueueMax + cmqWorkerTeardownSlack then (s, .idle)
      else (s, .teardownAlloc id gen)
  | .alloc req, .addr preferred =>
    match s.worker.msgFreelist with
    | some n => (s, .loaded req n)
    | none =>
      match preferred with
      | none => (s, .idle)
      | some preferred =>
        let n := unused s.worker.heap preferred
        (s.withHeap (write s.worker.heap n ⟨req.msg, none⟩), .fill req n)
  | .loaded req n, _ =>
    match read s.worker.heap n with
    | none => (s.fault, .idle)
    | some cell => (s, .advance req n cell.next)
  | .advance req n next, _ =>
    ({ s with worker := { s.worker with
        msgFreelist := next
        msgFreelistCount := s.worker.msgFreelistCount - 1 } }, .fill req n)
  | .fill req n, .ok success =>
    if (read s.worker.heap n).isSome then
      (s.withHeap (write s.worker.heap n ⟨req.msg, none⟩),
        if success then .ready n else .giveBack n true)
    else (s.fault, .idle)
  | .ready n, _ =>
    if s.worker.msgPending ≥ cmqWorkerMsgQueueMax then (s, .giveBack n false)
    else (s.link n, .signal .send n s.stamp)
  | .giveBack n counted, _ =>
    if counted ∧ s.worker.msgFreelistCount ≥ cmqWorkerMsgFreelistMax then
      (s.withHeap (free s.worker.heap n), .idle)
    else (s.pointToFreelist n, .store n counted)
  | .store n counted, _ => (s.storeFreelist n counted, .idle)
  | .signal _ _ stamp, .ok true => (s.note [.accepted stamp], .idle)
  | .signal kind n stamp, .ok false => (s, .relock kind n stamp)
  | .relock kind n stamp, _ =>
    match s.worker.workerUnlinkMsg n with
    | none => (s.fault, .idle)
    | some (_, false) => (s.note [.accepted stamp], .idle)
    | some (worker, true) =>
      match read worker.heap n with
      | none => (s.fault, .idle)
      | some cell =>
        let s := { s with worker }.note [.withdrawn cell.body]
        match kind with
        | .send => (s, .giveBack n false)
        | .teardown => (s.withHeap (free s.worker.heap n), .idle)
  | .teardownAlloc id gen, .addr preferred =>
    match preferred with
    | none => (s, .idle)
    | some preferred =>
      let n := unused s.worker.heap preferred
      (s.withHeap (write s.worker.heap n ⟨teardownMsg id gen, none⟩), .teardownReady id gen n)
  | .teardownReady id gen n, _ =>
    match s.worker.teardownQueued id gen with
    | none => (s.fault, .idle)
    | some queued =>
      if queued ∨ s.worker.msgPending ≥ cmqWorkerMsgQueueMax + cmqWorkerTeardownSlack then
        (s.withHeap (free s.worker.heap n), .idle)
      else (s.link n, .signal .teardown n s.stamp)
  | pc, _ => (s, pc)

def workerStep (s : Mailbox τ) (choice : WorkerChoice) : Mailbox τ :=
  match s.pc, choice with
  | .idle, .wake =>
    match s.worker.workerTakeBatch with
    | none => s.fault
    | some (worker, batch) => { s with worker, pc := .batch batch }
  | .idle, .popSend =>
    match s.worker.workerPopSend with
    | none => s.fault
    | some (worker, msg) => { s with worker, pc := .batch msg }
  | .idle, .popTeardown skipId skipGen =>
    match s.worker.workerPopTeardown skipId skipGen with
    | none => s.fault
    | some (worker, msg) => { s with worker, pc := .batch msg }
  | .idle, .deliver _ => s
  | .batch none, _ => { s with pc := .idle }
  | .batch (some a), choice =>
    match read s.worker.heap a with
    | none => s.fault
    | some cell =>
      match cell.body.kind, choice with
      | .teardown, _ => { s with pc := .purge a cell.next }
      | .send, .deliver success =>
        { (s.withHeap (free s.worker.heap a)).note
            [if success then .delivered cell.body else .dropped cell.body] with
          pc := .batch cell.next }
      | .send, _ => s
  | .purge a rest, _ =>
    match read s.worker.heap a with
    | none => s.fault
    | some cell =>
      match s.worker.workerPurgeSendForId cell.body.targetId cell.body.targetGen with
      | none => s.fault
      | some (worker, dropped) =>
        { { s with worker }.note (dropped.map .dropped) with pc := .close a rest }
  | .close a rest, _ =>
    match read s.worker.heap a with
    | none => s.fault
    | some cell => { s.note [.handled cell.body] with pc := .recycle a rest }
  | .recycle a rest, _ =>
    if s.worker.msgFreelistCount < cmqWorkerMsgFreelistMax then
      { s.pointToFreelist a with pc := .store a rest }
    else { s.withHeap (free s.worker.heap a) with pc := .batch rest }
  | .store a rest, _ => { s.storeFreelist a true with pc := .batch rest }

end Mailbox

/-- A step of a pushing thread or of the worker's thread, or the purge of the messages for a
client that was torn down. -/
inductive MailEvent (τ : Type u) where
  | push (thread : Nat) (choice : PushChoice τ)
  | worker (choice : WorkerChoice)
  | purge (id gen : Nat)
  deriving DecidableEq

namespace Mailbox

def step (s : Mailbox τ) : MailEvent τ → Mailbox τ
  | .push thread choice =>
    match s.threads[thread]? with
    | none => s
    | some pc =>
      let result := s.pushStep pc choice
      { result.1 with threads := s.threads.set thread result.2 }
  | .worker choice => s.workerStep choice
  | .purge id gen =>
    match s.worker.workerPurgeSendForId id gen with
    | none => s.fault
    | some (worker, dropped) => { s with worker }.note (dropped.map .dropped)

def start (threads : Nat) : Mailbox τ where
  worker := ⟨[], none, none, 0, none, 0⟩
  pc := .idle
  threads := List.replicate threads .idle
  stamp := 0
  log := []
  faulted := false

def run (threads : Nat) (events : List (MailEvent τ)) : Mailbox τ :=
  events.foldl step (start threads)

end Mailbox

end CMsgQueue.Server
