import CMsgQueue.Enterprise.AccountSubs
import CMsgQueue.Server.Deliver

/-!
# Subscribing

`handle_subscribe` and `handle_unsubscribe` of `server/cmq_server.c`.  A subscription is an entry
in the list of its client and a reference in the trie, which is an address in the heap of
references.  The outcome of every allocation is an argument of the handler, and so are the
accounts that another thread deletes while the handler runs.
-/

namespace CMsgQueue.Server

open Enterprise Tokens

/-- `CMQ_MAX_QUEUE_GROUP`. -/
def cmqMaxQueueGroup : Nat := 64
/-- `CMQ_MAX_SUBS_PER_CLIENT`. -/
def cmqMaxSubsPerClient : Nat := 1024

/-- `cmq_sub_entry_t` with its pointer to a reference. -/
structure SubEntry extends CmqSubEntry where
  ref : Option Nat
  deriving DecidableEq

/-- What subscribing uses of `cmq_client_t`. -/
structure SubClient where
  id : Nat
  connGen : Nat
  state : ClientState
  subs : List SubEntry
  subCount : Nat
  accountName : Bytes
  accountEpoch : Nat
  workerId : Int
  deriving DecidableEq

/-- What a handler does outside the subscription state. -/
inductive SubEffect where
  | suback (subId code : Nat)
  | unsuback (payload : Bytes)
  | error (text : Bytes)
  /-- `worker_push_teardown`, or the shutdown of the socket if the mailbox refuses it. -/
  | teardown (workerId : Int) (clientId connGen : Nat)
  /-- The shutdown of a socket that the acceptor owns. -/
  | shutdown (clientId connGen : Nat)
  | recordSub (subId : Nat) (subject account : Bytes)
  | recordUnsub (subId : Nat)
  deriving DecidableEq

/-- What subscribing uses of `struct cmq_server`, with the heap of references. -/
structure SubServer where
  accounts : SubAccounts
  sublist : CmqSublist Nat
  refs : List (Nat × CmqSubRef)
  clients : List SubClient
  numWorkers : Nat
  maxSubsPerClient : Int
  statSubscriptions : Nat
  statSubscribesRejected : Nat
  persist : Bool
  deriving DecidableEq

/-- What the environment decides during one `handle_subscribe`. -/
structure SubscribeEnv where
  entry : Bool
  /-- The address that the allocator prefers for the reference. -/
  ref : Option Nat
  claim : Nat → Bool
  deads : Bool
  insert : InsertAlloc
  restore : InsertAlloc
  /-- Accounts deleted by other threads after the account was charged. -/
  deletedAtCredit : List Bytes
  /-- Accounts deleted by other threads after the entry was linked. -/
  deletedAtLink : List Bytes
  send : SendOutcome

namespace SubClient

/-- `client_set_state(c, CMQ_CLIENT_CLOSING)`, if asked for. -/
def closingIf (c : SubClient) (closing : Bool) : SubClient :=
  if closing then { c with state := .closing } else c

/-- `client_force_closing`. -/
def forceClosing (c : SubClient) : SubClient :=
  if c.state = .closed ∨ c.state = .closing then c else { c with state := .closing }

def answered (c : SubClient) (send : SendOutcome) : SubClient :=
  match send with
  | .forceClosed => c.forceClosing
  | _ => c

/-- Unlinking an entry, and `sub_count--`. -/
def unlink (c : SubClient) (entry : SubEntry) : SubClient :=
  { c with subs := c.subs.erase entry, subCount := c.subCount - 1 }

end SubClient

namespace SubServer

def findClient (srv : SubServer) (id : Nat) : Option SubClient :=
  srv.clients.find? fun c => c.id == id

def putClient (srv : SubServer) (c : SubClient) : SubServer :=
  { srv with clients := srv.clients.map fun other => if other.id = c.id then c else other }

/-- `client_account_live`. -/
def clientAccountLive (srv : SubServer) (c : SubClient) : Bool :=
  accountSessionLive srv.accounts.mgr c.accountName c.accountEpoch

/-- An address that is not in use: the one that is preferred, or one above all others. -/
def freeAddr (srv : SubServer) (preferred : Nat) : Nat :=
  if preferred ∈ srv.refs.map Prod.fst then (srv.refs.map Prod.fst).max?.getD 0 + 1
  else preferred

/-- `malloc` of a reference and the assignments to it. -/
def mallocRef (srv : SubServer) (addr : Nat) (ref : CmqSubRef) : SubServer :=
  { srv with refs := (addr, ref) :: srv.refs }

def readRef (srv : SubServer) (addr : Nat) : Option CmqSubRef :=
  (srv.refs.find? fun cell => cell.1 == addr).map Prod.snd

/-- `free` of a reference. -/
def freeRef (srv : SubServer) (addr : Nat) : SubServer :=
  { srv with refs := srv.refs.filter fun cell => cell.1 ≠ addr }

def deleteAccounts (srv : SubServer) (names : List Bytes) : SubServer :=
  { srv with accounts := names.foldl cmqAccountDelete srv.accounts }

/-- `cmq_account_dec_subscriptions` through a pointer that is still held. -/
def debitSlot (srv : SubServer) (slot : Nat) (c : SubClient) : SubServer :=
  { srv with accounts := cmqAccountDecSubscriptions srv.accounts slot c.accountEpoch }

/-- `cmq_account_get` and, if it finds the account, `cmq_account_dec_subscriptions`. -/
def debitAccount (srv : SubServer) (c : SubClient) : SubServer :=
  match srv.accounts.slot? c.accountName with
  | none => srv
  | some slot => srv.debitSlot slot c

/-- `cmq_sublist_remove` of an entry's reference, and `free` of the reference. -/
def dropRef (srv : SubServer) (entry : SubEntry) : SubServer :=
  match entry.ref with
  | none => srv
  | some addr =>
    { srv with
      sublist := (cmqSublistRemove srv.sublist entry.subject (some addr)).1 }.freeRef addr

/-- `stat_subscriptions`, counted down. -/
def countDown (srv : SubServer) : SubServer :=
  { srv with statSubscriptions := srv.statSubscriptions - 1 }

/-- The limit of `max_subs_per_client`. -/
def subCap (srv : SubServer) : Int :=
  if srv.maxSubsPerClient > 0 then srv.maxSubsPerClient else cmqMaxSubsPerClient

/-- SUBACK with code 1 after the given effects; `counted` adds to
`stat_subscribes_rejected` and `closing` sets the client to closing. -/
def refuse (srv : SubServer) (send : SendOutcome) (c : SubClient) (counted closing : Bool)
    (subId : Nat) (effects : List SubEffect) : SubServer × List SubEffect :=
  ({ srv with
      statSubscribesRejected :=
        if counted then srv.statSubscribesRejected + 1 else srv.statSubscribesRejected
      }.putClient ((c.answered send).closingIf closing),
    effects ++ [.suback subId 1])

end SubServer

/-! ## Reading the frame -/

/-- The parts of a SUBSCRIBE frame. -/
structure SubRequest where
  subId : Nat
  subject : Bytes
  queueGroup : Bytes
  deriving DecidableEq

/-- A SUBSCRIBE that is answered with code 1, and whether it counts as rejected. -/
structure SubRefusal where
  subId : Nat
  counted : Bool
  deriving DecidableEq

/-- `_INBOX` or a subject below it, with a wildcard in it. -/
def isInboxWildcard (subject : Bytes) : Bool :=
  (isInbox subject || subject == cstr "_INBOX") &&
    (subject.contains chStar || subject.contains chGt)

/-- The queue group behind the subject, which is there if two bytes are left for its length. -/
def parseQueueGroup (rest : Bytes) : Option Bytes :=
  if rest.length < 2 then some []
  else
    let len := getBe (rest.take 2)
    if len = 0 then some []
    else if len ≥ cmqMaxQueueGroup ∨ 2 + len > rest.length then none
    else
      let group := (rest.drop 2).take len
      if group.contains 0 then none else some group

/-- `handle_subscribe` up to the queue group. -/
def subscribeFront (srv : SubServer) (c : SubClient) (payload : Bytes) :
    Except SubRefusal SubRequest :=
  if payload.length < 6 then .error ⟨0, false⟩
  else
    let subId := getBe (payload.take 4)
    if subId = 0 then .error ⟨0, false⟩
    else
      let len := getBe ((payload.drop 4).take 2)
      if 6 + len > payload.length ∨ len = 0 ∨ len ≥ cmqMaxSubject then .error ⟨subId, false⟩
      else
        let subject := (payload.drop 6).take len
        if subject.contains 0 ∨ cmqSublistSubjectValid subject = false then
          .error ⟨subId, false⟩
        else if isInboxWildcard subject then .error ⟨subId, true⟩
        else if cmqAccountCanImport srv.accounts.mgr c.accountName subject = false then
          .error ⟨subId, true⟩
        else
          match parseQueueGroup (payload.drop (6 + len)) with
          | none => .error ⟨subId, false⟩
          | some queueGroup => .ok ⟨subId, subject, queueGroup⟩

def SubRequest.entry (req : SubRequest) (addr : Nat) : SubEntry where
  subId := req.subId
  subject := req.subject
  queueGroup := req.queueGroup
  ref := some addr

def CmqSubEntry.refOf (entry : CmqSubEntry) (client : Nat) : CmqSubRef where
  client := client
  subId := entry.subId
  subject := entry.subject
  queueGroup := entry.queueGroup

/-! ## The first claim of an inbox -/

/-- How the loop over the holders of an inbox ends.  The holders of dead accounts are told to
go: some while the loop runs, the others later. -/
inductive InboxClaim where
  | free (nudged deads : List SubEffect)
  | taken (nudged : List SubEffect)

def SubServer.nudge (srv : SubServer) (holder : SubClient) : SubEffect :=
  if 0 ≤ holder.workerId ∧ holder.workerId < srv.numWorkers then
    .teardown holder.workerId holder.id holder.connGen
  else .shutdown holder.id holder.connGen

/-- The loop over the references that match the inbox; `deadCap` is the room for the holders
that are told later. -/
def claimLoop (srv : SubServer) (c : SubClient) (subject : Bytes) (deadCap : Nat) :
    List (Option Nat) → List SubEffect → List SubEffect → InboxClaim
  | [], nudged, deads => .free nudged deads
  | entry :: entries, nudged, deads =>
    match (entry.bind srv.readRef).bind fun ref =>
        (srv.findClient ref.client).map fun holder => (ref, holder) with
    | none => claimLoop srv c subject deadCap entries nudged deads
    | some (ref, holder) =>
      if ref.subject ≠ subject ∨ holder.id = c.id then
        claimLoop srv c subject deadCap entries nudged deads
      else if srv.clientAccountLive holder then .taken (nudged ++ deads)
      else if deads.length < deadCap then
        claimLoop srv c subject deadCap entries nudged (deads ++ [srv.nudge holder])
      else claimLoop srv c subject deadCap entries (nudged ++ [srv.nudge holder]) deads

def inboxClaim (env : SubscribeEnv) (srv : SubServer) (c : SubClient) (subject : Bytes) :
    InboxClaim :=
  if isInbox subject = false then .free [] []
  else
    match cmqSublistMatch env.claim srv.sublist subject with
    | none => .taken []
    | some claim =>
      let count := claim.entries.length
      let deadCap := if count > 16 ∧ count ≤ sizeMax / 12 ∧ env.deads then count else 16
      claimLoop srv c subject deadCap claim.entries [] []

/-! ## The handlers -/

def SubServer.accept (srv : SubServer) (send : SendOutcome) (c : SubClient) (req : SubRequest)
    (effects : List SubEffect) : SubServer × List SubEffect :=
  (srv.putClient (c.answered send),
    effects ++ .suback req.subId 0 ::
      if srv.persist then [.recordSub req.subId req.subject c.accountName] else [])

/-- `handle_subscribe` behind the first-claim test for a `sub_id` that the client does not
use. -/
def subscribeNew (env : SubscribeEnv) (srv : SubServer) (c : SubClient) (req : SubRequest)
    (addr : Nat) (nudged deads : List SubEffect) : SubServer × List SubEffect :=
  match srv.accounts.slot? c.accountName with
  | none => (srv.freeRef addr).refuse env.send c true true req.subId nudged
  | some slot =>
    let credit := cmqAccountIncSubscriptions srv.accounts slot c.accountEpoch
    if credit.2 ≠ 0 then
      (srv.freeRef addr).refuse env.send c true (credit.2 ≠ -2) req.subId nudged
    else
      let srv := { srv with accounts := credit.1 }.deleteAccounts env.deletedAtCredit
      if srv.clientAccountLive c = false then
        ((srv.debitSlot slot c).freeRef addr).refuse env.send c true true req.subId nudged
      else
        let inserted := cmqSublistInsert env.insert srv.sublist req.subject (some addr)
        let srv := { srv with sublist := inserted.1 }
        if inserted.2 ≠ 0 then
          ((srv.debitSlot slot c).freeRef addr).refuse env.send c false false req.subId
            (nudged ++ deads)
        else
          let entry := req.entry addr
          let c := { c with subs := entry :: c.subs, subCount := c.subCount + 1 }
          let srv := { srv with statSubscriptions := srv.statSubscriptions + 1
            }.deleteAccounts env.deletedAtLink
          if srv.clientAccountLive c = false then
            (((srv.debitSlot slot c).dropRef entry).countDown).refuse env.send
              (c.unlink entry) false true req.subId (nudged ++ deads)
          else srv.accept env.send c req (nudged ++ deads)

/-- `handle_subscribe` behind the first-claim test for a `sub_id` in use: the old
registration leaves the trie first and comes back if the new one fails. -/
def subscribeReplace (env : SubscribeEnv) (srv : SubServer) (c : SubClient) (req : SubRequest)
    (old : SubEntry) (addr : Nat) (nudged deads : List SubEffect) :
    SubServer × List SubEffect :=
  let removed := match old.ref with
    | none => srv.sublist
    | some oldRef => (cmqSublistRemove srv.sublist old.subject (some oldRef)).1
  let inserted := cmqSublistInsert env.insert removed req.subject (some addr)
  if inserted.2 ≠ 0 then
    match old.ref with
    | none =>
      ({ srv with sublist := inserted.1 }.freeRef addr).refuse env.send c false false req.subId
        (nudged ++ deads)
    | some oldRef =>
      let restored := cmqSublistInsert env.restore inserted.1 old.subject (some oldRef)
      let srv := { srv with sublist := restored.1 }
      if restored.2 ≠ 0 then
        -- Neither registration is in the trie: the entry goes and the connection with it.
        ((((srv.freeRef oldRef).freeRef addr).countDown).debitAccount c).refuse env.send
          (c.unlink old).forceClosing false false req.subId (nudged ++ deads)
      else (srv.freeRef addr).refuse env.send c false false req.subId (nudged ++ deads)
  else
    let srv := { srv with sublist := inserted.1 }
    let srv := match old.ref with
      | none => srv
      | some oldRef => srv.freeRef oldRef
    let entry := req.entry addr
    let c := { c with subs := entry :: c.subs.erase old }
    let srv := srv.deleteAccounts env.deletedAtLink
    if srv.clientAccountLive c = false then
      (((srv.dropRef entry).countDown).debitAccount c).refuse env.send (c.unlink entry) false
        true req.subId (nudged ++ deads)
    else srv.accept env.send c req (nudged ++ deads)

/-- `handle_subscribe`. -/
def handleSubscribe (env : SubscribeEnv) (srv : SubServer) (c : SubClient) (payload : Bytes) :
    SubServer × List SubEffect :=
  match subscribeFront srv c payload with
  | .error refusal => srv.refuse env.send c refusal.counted false refusal.subId []
  | .ok req =>
    let old := c.subs.find? fun entry => entry.subId == req.subId
    if old = none ∧ srv.subCap ≤ c.subCount then
      srv.refuse env.send c true false req.subId []
    else if env.entry = false then srv.refuse env.send c false false req.subId []
    else
      match env.ref with
      | none => srv.refuse env.send c false false req.subId []
      | some preferred =>
        let addr := srv.freeAddr preferred
        let srv := srv.mallocRef addr ((req.entry addr).refOf c.id)
        match inboxClaim env srv c req.subject with
        | .taken nudged => (srv.freeRef addr).refuse env.send c true false req.subId nudged
        | .free nudged deads =>
          match old with
          | none => subscribeNew env srv c req addr nudged deads
          | some old => subscribeReplace env srv c req old addr nudged deads

/-- `handle_unsubscribe`. -/
def handleUnsubscribe (send : SendOutcome) (srv : SubServer) (c : SubClient) (payload : Bytes) :
    SubServer × List SubEffect :=
  if payload.length < 4 then
    (srv.putClient (c.answered send), [.error (cstr "invalid unsubscribe")])
  else
    let subId := getBe (payload.take 4)
    match c.subs.find? fun entry => entry.subId == subId with
    | none => (srv.putClient (c.answered send), [.unsuback (payload.take 4)])
    | some entry =>
      ((((srv.dropRef entry).countDown).debitAccount c).putClient
          ((c.unlink entry).answered send),
        (if srv.persist then [.recordUnsub subId] else []) ++ [.unsuback (payload.take 4)])

end CMsgQueue.Server
