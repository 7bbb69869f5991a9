import Mathlib.Data.List.Basic

/-!
# The sync slot of a REQUEST to a client of another worker

`deliver_request_via_worker` of `server/cmq_server.c` puts a message into the mailbox of the
worker that owns the target and waits on a slot in the heap.  Each atomic operation on the slot
and each critical section of the mailbox is one step.  A slot is used through `access`, which
shows a use after `free` and a second `free` as a fault.
-/

namespace CMsgQueue.Server

/-- The values of `cmq_req_sync_t::result`: 0, 2, 1 and -1. -/
inductive SyncResult where
  | pending
  | claimed
  | ok
  | fail
  deriving DecidableEq

/-- `req_sync_terminal`. -/
def reqSyncTerminal : SyncResult → Bool
  | .ok | .fail => true
  | .pending | .claimed => false

/-- `cmq_req_sync_t`, with how often it was freed. -/
structure CmqReqSync where
  result : SyncResult
  refs : Nat
  buffered : Bool
  freed : Nat
  deriving DecidableEq

/-- A new slot: `calloc`, then `refs = 2`. -/
def CmqReqSync.new : CmqReqSync := ⟨.pending, 2, false, 0⟩

/-- `req_sync_release`. -/
def reqSyncRelease (slot : CmqReqSync) : CmqReqSync :=
  let refs := slot.refs - 1
  { slot with refs, freed := if refs = 0 then slot.freed + 1 else slot.freed }

/-- `__atomic_compare_exchange_n` on the result, with whether it succeeds. -/
def CmqReqSync.exchange (slot : CmqReqSync) (expected desired : SyncResult) :
    CmqReqSync × Bool :=
  if slot.result = expected then ({ slot with result := desired }, true) else (slot, false)

/-- Where the worker is in `worker_deliver_send_msg` for a message, given by its slot. -/
inductive RequestWorkerPc where
  | idle
  /-- `req_sync_claim`. -/
  | claim (i : Nat)
  /-- `cmq_client_send_local`. -/
  | send (i : Nat)
  /-- `buffered` is to be set. -/
  | mark (i : Nat)
  /-- `client_drain_write_sync`. -/
  | drain (i : Nat)
  /-- The load of `worker_complete_sync`. -/
  | complete (i : Nat) (v : SyncResult)
  /-- Its compare and exchange. -/
  | resolve (i : Nat) (v cur : SyncResult)
  | release (i : Nat)
  deriving DecidableEq

/-- Where the publisher is in `deliver_request_via_worker`, with the slot of the attempt. -/
inductive PublisherPc where
  /-- The head of the loop over the attempts. -/
  | start
  /-- `worker_push_msg` up to its second critical section, which is included. -/
  | push (i : Nat)
  /-- The wakeup of `worker_push_msg`, and its critical section after a failure. -/
  | signal (i : Nat)
  | relock (i : Nat)
  /-- `worker_complete_sync` in `worker_push_msg`: load, compare and exchange, release. -/
  | complete (i : Nat)
  | resolve (i : Nat) (cur : SyncResult)
  | release (i : Nat)
  | pushFailed (i : Nat)
  | wait (i waited : Nat)
  /-- The critical section at the soft deadline. -/
  | cancel (i : Nat)
  | cancelled (i : Nat)
  | extra (i n : Nat)
  | hard (i n : Nat)
  /-- Hard abandon. -/
  | abandon (i n : Nat)
  /-- The block behind the loops: load, compare and exchange. -/
  | last (i : Nat)
  | lastAbandon (i : Nat)
  /-- `req_sync_finish`. -/
  | finish (i : Nat) (v : SyncResult)
  /-- `req_sync_release` before the return. -/
  | leave (i : Nat) (ret : Int)
  | done (ret : Int)
  deriving DecidableEq

/-- The publisher, the owning worker, and what they share. -/
structure RequestState where
  slots : List CmqReqSync
  /-- The messages of the request in the mailbox and in the batch of the worker. -/
  queued : List Nat
  taken : List Nat
  worker : RequestWorkerPc
  publisher : PublisherPc
  attempt : Nat
  /-- The messages put on the target's wire, and those of them that were drained. -/
  wire : List Nat
  drained : List Nat
  faulted : Bool
  deriving DecidableEq

/-- What `worker_push_msg` makes of the frame. -/
structure PushEnv where
  len : Nat
  /-- `msg_payload_pool` serves the message of an attempt. -/
  serves : Nat → Bool

/-- `from_pool` of the message of an attempt. -/
def PushEnv.fromPool (env : PushEnv) (i : Nat) : Bool := env.len ≤ 64 * 1024 && env.serves i

namespace RequestState

def freedMsg (s : RequestState) (i : Nat) : Bool :=
  i ∉ s.queued && i ∉ s.taken && s.worker == .idle

def access (s : RequestState) (i : Nat) (use : CmqReqSync → RequestState) : RequestState :=
  match s.slots[i]? with
  | none => { s with faulted := true }
  | some slot => if slot.freed = 0 then use slot else { s with faulted := true }

def put (s : RequestState) (i : Nat) (slot : CmqReqSync) : RequestState :=
  { s with slots := s.slots.set i slot }

/-- `free(sync)`. -/
def freeSync (s : RequestState) (i : Nat) (next : RequestState → RequestState) : RequestState :=
  s.access i fun slot => next (s.put i { slot with freed := slot.freed + 1 })

/-- `req_sync_finish` without the release. -/
def reqSyncFinish (slot : CmqReqSync) (v : SyncResult) : Int :=
  match v with
  | .ok => 1
  | .fail => if slot.buffered then -1 else 0
  | _ => 0

/-- One step of the publisher.  The environment decides whether an allocation, a push or a
wakeup succeeds, and whether a freed message was allocated again and is in the mailbox for somebody
else. -/
def publisherStep (env : PushEnv) (s : RequestState) (success : Bool) : RequestState :=
  match s.publisher with
  | .start =>
    if s.attempt < 4 ∧ success then
      { s with slots := s.slots ++ [.new], publisher := .push s.slots.length }
    else { s with publisher := .done 0 }
  | .push i =>
    if success then { s with queued := s.queued ++ [i], publisher := .signal i }
    else { s with publisher := .pushFailed i }
  | .signal i => { s with publisher := if success then .wait i 0 else .relock i }
  | .relock i =>
    if i ∈ s.queued then { s with queued := s.queued.erase i, publisher := .complete i }
    -- The message is looked for by its address, so one without a slot may be found there.
    else if s.freedMsg i ∧ success then { s with publisher := .pushFailed i }
    else { s with publisher := .wait i 0 }
  | .complete i => s.access i fun slot =>
    { s with publisher :=
        if reqSyncTerminal slot.result then .release i else .resolve i slot.result }
  | .resolve i cur => s.access i fun slot =>
    let result := slot.exchange cur .fail
    { s.put i result.1 with publisher := if result.2 then .release i else .complete i }
  | .release i => s.access i fun slot =>
    { s.put i (reqSyncRelease slot) with publisher := .pushFailed i }
  | .pushFailed i => s.freeSync i fun s => { s with publisher := .start, attempt := s.attempt + 1 }
  | .wait i waited => s.access i fun slot =>
    { s with publisher :=
        if reqSyncTerminal slot.result then .finish i slot.result
        else if waited ≥ 100000 then .cancel i
        else .wait i (waited + 1) }
  | .cancel i =>
    if i ∈ s.queued then
      -- `free(found->buf)`, which is wrong for a buffer of the pool.
      { s with
        queued := s.queued.erase i, publisher := .cancelled i, faulted := s.faulted || env.fromPool i }
    else { s with publisher := .extra i 0 }
  | .cancelled i => s.freeSync i fun s => { s with publisher := .done 0 }
  | .extra i n =>
    if n < 50000 then s.access i fun slot =>
      { s with publisher :=
          if reqSyncTerminal slot.result then .finish i slot.result else .extra i (n + 1) }
    else { s with publisher := .hard i 0 }
  | .hard i n =>
    if n < 50000 then s.access i fun slot =>
      { s with publisher :=
          if reqSyncTerminal slot.result then .finish i slot.result
          else if slot.result = .pending then .abandon i n
          else .hard i (n + 1) }
    else { s with publisher := .last i }
  | .abandon i n => s.access i fun slot =>
    let result := slot.exchange .pending .fail
    { s.put i result.1 with publisher := if result.2 then .leave i 0 else .hard i (n + 1) }
  | .last i => s.access i fun slot =>
    { s with publisher :=
        if reqSyncTerminal slot.result then .finish i slot.result
        else if slot.result = .claimed then .leave i (-1)
        else .lastAbandon i }
  | .lastAbandon i => s.access i fun slot =>
    let result := slot.exchange .pending .fail
    let next : PublisherPc :=
      if result.2 then .leave i 0
      else if reqSyncTerminal slot.result then .finish i slot.result
      else .leave i (if slot.result = .claimed then -1 else 0)
    { s.put i result.1 with publisher := next }
  | .finish i v => s.access i fun slot => { s with publisher := .leave i (reqSyncFinish slot v) }
  | .leave i ret => s.access i fun slot =>
    { s.put i (reqSyncRelease slot) with publisher := .done ret }
  | .done _ => s

/-- What the worker does next if it handles no message. -/
inductive WorkerTurn where
  /-- Taking the first message out of the mailbox into the batch. -/
  | take
  | handle
  /-- `worker_purge_send_for_id` for the target. -/
  | purge
  deriving DecidableEq

/-- One step of the worker.  The environment decides whether the checks pass, the bytes are
queued and the drain succeeds. -/
def workerStep (s : RequestState) (turn : WorkerTurn) (success : Bool) : RequestState :=
  match s.worker with
  | .idle =>
    match turn with
    | .take =>
      match s.queued with
      | [] => s
      | i :: rest => { s with queued := rest, taken := s.taken ++ [i] }
    | .handle =>
      match s.taken with
      | [] => s
      | i :: rest =>
        { s with taken := rest, worker := if success then .claim i else .complete i .fail }
    | .purge =>
      match s.queued with
      | [] => s
      | i :: rest => { s with queued := rest, worker := .complete i .fail }
  | .claim i => s.access i fun slot =>
    let result := slot.exchange .pending .claimed
    { s.put i result.1 with worker := if result.2 then .send i else .complete i .fail }
  | .send i =>
    if success then { s with wire := s.wire ++ [i], worker := .mark i }
    else { s with worker := .complete i .fail }
  | .mark i => s.access i fun slot =>
    { s.put i { slot with buffered := true } with worker := .drain i }
  | .drain i =>
    if success then { s with drained := s.drained ++ [i], worker := .complete i .ok }
    else { s with worker := .complete i .fail }
  | .complete i v => s.access i fun slot =>
    { s with worker :=
        if reqSyncTerminal slot.result then .release i else .resolve i v slot.result }
  | .resolve i v cur => s.access i fun slot =>
    let result := slot.exchange cur v
    { s.put i result.1 with worker := if result.2 then .release i else .complete i v }
  | .release i => s.access i fun slot => { s.put i (reqSyncRelease slot) with worker := .idle }

end RequestState

/-- A step of the publisher or of the worker. -/
inductive RequestEvent where
  | publisher (success : Bool)
  | worker (turn : RequestState.WorkerTurn) (success : Bool)
  deriving DecidableEq

namespace RequestState

def step (env : PushEnv) (s : RequestState) : RequestEvent → RequestState
  | .publisher success => s.publisherStep env success
  | .worker turn success => s.workerStep turn success

/-- The publisher calls `deliver_request_via_worker`. -/
def start : RequestState := ⟨[], [], [], .idle, .start, 0, [], [], false⟩

def run (env : PushEnv) (events : List RequestEvent) : RequestState :=
  events.foldl (step env) start

end RequestState

end CMsgQueue.Server
