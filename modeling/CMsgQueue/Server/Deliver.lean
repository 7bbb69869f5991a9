import CMsgQueue.Enterprise.Account
import CMsgQueue.Proto.Frame
import CMsgQueue.Server.DynReload
import CMsgQueue.Server.Sublist

/-!
# Delivery

The snapshot of the targets of a publish, the rechecks made for every target, and
`cmq_server_publish`, the entry point for publishes that come from no client.

Clients are named by their id.  Sending and queueing have outcomes the model does not determine;
`DeliverEnv` holds them.
-/

namespace CMsgQueue.Server

open Enterprise Proto Util

/-- `CMQ_MAX_SUBJECT`. -/
def cmqMaxSubject : Nat := 256

/-- `cmq_client_state_t`. -/
inductive ClientState where
  | init
  | connected
  | closing
  | closed
  deriving DecidableEq

/-- `cmq_sub_entry_t`. -/
structure CmqSubEntry where
  subId : Nat
  subject : Bytes
  queueGroup : Bytes
  deriving DecidableEq

/-- `cmq_client_t`. -/
structure CmqClient where
  id : Nat
  connGen : Nat
  fd : Int
  state : ClientState
  subs : List CmqSubEntry
  accountName : Bytes
  accountEpoch : Nat
  accountMaxPayload : Nat
  accountMaxBytesLive : Nat
  isRoute : Bool
  workerId : Int
  deriving DecidableEq

/-- `cmq_sub_ref_t`; `client` is the id of the client it points to. -/
structure CmqSubRef where
  client : Nat
  subId : Nat
  subject : Bytes
  queueGroup : Bytes
  deriving DecidableEq

/-- `cmq_deliver_tgt_t`. -/
structure CmqDeliverTgt where
  clientId : Nat
  connGen : Nat
  workerId : Int
  subId : Nat
  accountEpoch : Nat
  subject : Bytes
  queueGroup : Bytes
  accountName : Bytes
  deriving DecidableEq

/-- `struct cmq_server`, apart from the stores that only a client's publish uses;
`currentWorker` is the thread's `cmq_current_worker_id`. -/
structure CmqServer where
  accounts : CmqAccountManager
  sublist : CmqSublist CmqSubRef
  clients : List CmqClient
  numWorkers : Nat
  currentWorker : Int
  qgRrCounter : Nat
  maxPayloadSize : Nat
  aclH : Option Nat
  aclHeap : RchHeap CmqAcl

/-- What `cmq_client_send_local` can come back with. -/
inductive SendOutcome where
  | sent
  | failed
  /-- The client was set to closing. -/
  | forceClosed
  deriving DecidableEq

/-- Outcomes of allocations and of input and output during a delivery.  `push` and `send`
are indexed by the target, `push` also by the attempt. -/
structure DeliverEnv where
  realloc : Nat → Bool
  targets : Bool
  qgHash : Bool
  subjectHash : Bool
  frame : Bool
  push : Nat → Nat → Bool
  send : Nat → SendOutcome

/-- A message handed to a client: written to its buffer, or queued for its worker. -/
structure Delivery where
  target : CmqDeliverTgt
  frame : Bytes
  queued : Bool
  deriving DecidableEq

namespace CmqServer

/-- `cmq_idmap_get`, and the client a reference points to. -/
def findClient (srv : CmqServer) (id : Nat) : Option CmqClient :=
  srv.clients.find? fun c => c.id == id

/-- `client_set_state(c, CMQ_CLIENT_CLOSING)`. -/
def setClosing (srv : CmqServer) (id : Nat) : CmqServer :=
  { srv with
    clients := srv.clients.map fun c => if c.id = id then { c with state := .closing } else c }

end CmqServer

/-- `client_account_live`. -/
def clientAccountLive (srv : CmqServer) (c : CmqClient) : Bool :=
  if c.accountName = [] then false
  else
    match cmqAccountGet srv.accounts c.accountName with
    | none => false
    | some a => a.epoch == c.accountEpoch

/-- `pub_account_epoch_live`. -/
def pubAccountEpochLive (srv : CmqServer) (pubAccount : Bytes) (pubEpoch : Nat) : Bool :=
  if pubAccount = [] then true
  else if pubEpoch = 0 then false
  else
    match cmqAccountGet srv.accounts pubAccount with
    | none => false
    | some a => a.epoch == pubEpoch

/-! ## The snapshot -/

/-- `cmq_fill_deliver_tgt`. -/
def cmqFillDeliverTgt (ref : CmqSubRef) (client : CmqClient) : CmqDeliverTgt where
  clientId := client.id
  connGen := client.connGen
  workerId := client.workerId
  subId := ref.subId
  accountEpoch := client.accountEpoch
  subject := ref.subject
  queueGroup := ref.queueGroup
  accountName := client.accountName

/-- A matched reference and the client it points to. -/
abbrev Matched := CmqSubRef × CmqClient

def refClient (srv : CmqServer) (entry : Option CmqSubRef) : Option Matched :=
  entry.bind fun ref => (srv.findClient ref.client).map fun client => (ref, client)

def snapshotLive (srv : CmqServer) (client : CmqClient) : Bool :=
  clientAccountLive srv client && client.state == .connected

def fnv1a (text : Bytes) : Nat :=
  text.foldl (fun h c => (h ^^^ c.toNat) * 0x100000001b3 % 2 ^ 64) 0xcbf29ce484222325

/-- `qg_hash` of an entry. -/
def qgHash (m : Matched) : Nat := fnv1a (m.1.subject ++ m.1.queueGroup ++ m.2.accountName)

/-- The tests of the inner loop: the hashes, as far as they could be allocated, and then
the texts.  The subject hashes are filled in only along with the others. -/
def sameGroup (env : DeliverEnv) (first other : Matched) : Bool :=
  other.1.queueGroup != [] &&
    (!(env.qgHash && env.subjectHash) || fnv1a other.1.subject == fnv1a first.1.subject) &&
    (!env.qgHash || qgHash other == qgHash first) &&
    other.1.queueGroup == first.1.queueGroup && other.1.subject == first.1.subject &&
    other.2.accountName == first.2.accountName

/-- An entry is an unused member of the group of `first`. -/
def inGroup (env : DeliverEnv) (srv : CmqServer) (first : Matched)
    (entry : Option CmqSubRef × Bool) : Bool :=
  !entry.2 && (refClient srv entry.1).any (sameGroup env first)

def groupMembers (env : DeliverEnv) (srv : CmqServer) (first : Matched)
    (entries : List (Option CmqSubRef × Bool)) : List Matched :=
  ((entries.filter (inGroup env srv first)).filterMap fun entry => refClient srv entry.1).filter
    fun m => snapshotLive srv m.2

/-- The outer loop of `snapshot_deliver_targets` over the entries and their `used` marks,
with the round-robin counter. -/
def snapshotLoop (env : DeliverEnv) (srv : CmqServer) :
    Nat → List (Option CmqSubRef × Bool) → Nat → List CmqDeliverTgt × Nat
  | 0, _, counter => ([], counter)
  | _ + 1, [], counter => ([], counter)
  | fuel + 1, entry :: entries, counter =>
    if entry.2 then snapshotLoop env srv fuel entries counter
    else
      match refClient srv entry.1 with
      | none => snapshotLoop env srv fuel entries counter
      | some first =>
        if first.1.queueGroup = [] then
          let later := snapshotLoop env srv fuel entries counter
          if snapshotLive srv first.2 then
            (cmqFillDeliverTgt first.1 first.2 :: later.1, later.2)
          else later
        else
          let members := groupMembers env srv first (entry :: entries)
          let marked := entries.map fun other =>
            (other.1, other.2 || inGroup env srv first other)
          match members[counter % members.length]? with
          | none => snapshotLoop env srv fuel marked counter
          | some picked =>
            let later := snapshotLoop env srv fuel marked ((counter + 1) % 2 ^ 64)
            (cmqFillDeliverTgt picked.1 picked.2 :: later.1, later.2)

/-- `snapshot_deliver_targets`; `none` stands for `SIZE_MAX`. -/
def snapshotDeliverTargets (env : DeliverEnv) (srv : CmqServer)
    (entries : List (Option CmqSubRef)) : Option (List CmqDeliverTgt × Nat) :=
  if entries = [] then some ([], srv.qgRrCounter)
  else if env.targets = false then none
  else
    some (snapshotLoop env srv entries.length (entries.map fun entry => (entry, false))
      srv.qgRrCounter)

/-! ## Message frames -/

/-- `cmq_build_message_frame`; `none` is a null pointer. -/
def cmqBuildMessageFrame (alloc : Bool) (subId : Nat) (subject payload headers : Bytes) :
    Option Bytes :=
  if subject.length = 0 ∨ subject.length ≥ cmqMaxSubject ∨ subject.length > 0xFFFF ∨
      headers.length > 0xFFFF then none
  else if payload.length > sizeMax - (4 + 2 + subject.length + 2 + headers.length + 4) then none
  else
    let body := putBe 4 subId ++ putBe 2 subject.length ++ subject ++
      putBe 2 headers.length ++ headers ++ putBe 4 payload.length ++ payload
    if body.length > sizeMax - cmqHeaderLen ∨ alloc = false then none
    else
      let flags := if headers.length > 0 then cmqFlagHeaders else 0
      let frame := cmqFrameEncode (cmqHeaderLen + body.length) CmqOp.message.code flags body
      if frame = [] then none else some frame

/-- `cmq_patch_message_sub_id`. -/
def cmqPatchMessageSubId (frame : Bytes) (subId : Nat) : Bytes :=
  frame.take cmqHeaderLen ++ putBe 4 subId ++ frame.drop (cmqHeaderLen + 4)

/-- `message_frame_subject` into a buffer of `CMQ_MAX_SUBJECT` bytes. -/
def messageFrameSubject (frame : Bytes) : Option Bytes :=
  if frame.length < cmqHeaderLen + 6 then none
  else
    let body := frame.drop cmqHeaderLen
    let slen := getBe ((body.drop 4).take 2)
    if slen = 0 ∨ slen ≥ cmqMaxSubject ∨ 6 + slen > body.length then none
    else some ((body.drop 6).take slen)

/-! ## Sending to a target -/

/-- `client_sub_covers`. -/
def clientSubCovers (c : CmqClient) (subId : Nat) (subject : Bytes) : Bool :=
  if subId = 0 then false
  else
    match c.subs.find? fun e => e.subId == subId with
    | none => false
    | some e => subPatternMatch e.subject subject

/-- `client_require_sub_ok`. -/
def clientRequireSubOk (c : CmqClient) (requireSubId : Nat) (frame : Bytes) : Bool :=
  if requireSubId = 0 then true
  else
    match messageFrameSubject frame with
    | none => false
    | some subject => clientSubCovers c requireSubId subject

/-- `deliver_acl_ok`. -/
def deliverAclOk (srv : CmqServer) (pubAccount : Bytes) (pubEpoch : Nat)
    (subAccount frame : Bytes) : Bool :=
  if pubAccount = [] then true
  else if !pubAccountEpochLive srv pubAccount pubEpoch then false
  else
    match messageFrameSubject frame with
    | none => false
    | some subject => cmqAccountMayDeliver srv.accounts pubAccount subAccount subject

/-- The two branches of `client_send_by_id` that send in this thread make the same
checks: the client is found, of the same generation, connected, of a live account, and
still holds the subscription. -/
def clientSendHere (outcome : SendOutcome) (srv : CmqServer) (t : CmqDeliverTgt)
    (frame pubAccount : Bytes) (pubEpoch : Nat) : CmqServer × Bool :=
  match srv.findClient t.clientId with
  | none => (srv, false)
  | some c =>
    if c.connGen ≠ t.connGen ∨ c.state ≠ .connected then (srv, false)
    else if !clientAccountLive srv c then (srv.setClosing c.id, false)
    else if !clientRequireSubOk c t.subId frame then (srv, false)
    else if !deliverAclOk srv pubAccount pubEpoch c.accountName frame then (srv, false)
    else
      match outcome with
      | .sent => (srv, true)
      | .failed => (srv, false)
      | .forceClosed => (srv.setClosing c.id, false)

def onWorker (srv : CmqServer) (t : CmqDeliverTgt) : Bool :=
  0 ≤ t.workerId && t.workerId < srv.numWorkers

/-- `deliver_via_worker` for targets of a worker and `client_send_by_id` for the others,
as `deliver_targets_sync` calls them: sent, queued, or neither. -/
def deliverTo (env : DeliverEnv) (i : Nat) (srv : CmqServer) (t : CmqDeliverTgt)
    (frame pubAccount : Bytes) (pubEpoch : Nat) : CmqServer × Option Delivery :=
  if onWorker srv t && srv.currentWorker ≠ t.workerId then
    if (List.range 4).any (env.push i) then (srv, some ⟨t, frame, true⟩) else (srv, none)
  else
    let sent := clientSendHere (env.send i) srv t frame pubAccount pubEpoch
    (sent.1, if sent.2 then some ⟨t, frame, false⟩ else none)

/-- `deliver_tgt_accepts_subject`. -/
def deliverTgtAcceptsSubject (t : CmqDeliverTgt) (subject : Bytes) : Bool :=
  if isInbox subject then t.subject == subject else true

/-- The loop of `deliver_targets_sync`. -/
def deliverLoop (env : DeliverEnv) (subject frame pubAccount : Bytes) (pubEpoch : Nat) :
    Nat → CmqServer → List CmqDeliverTgt → CmqServer × List Delivery
  | _, srv, [] => (srv, [])
  | i, srv, t :: tgts =>
    if !deliverTgtAcceptsSubject t subject ||
        !pubAccountEpochLive srv pubAccount pubEpoch ||
        !cmqAccountMayDeliver srv.accounts pubAccount t.accountName subject then
      deliverLoop env subject frame pubAccount pubEpoch (i + 1) srv tgts
    else
      let delivered := deliverTo env i srv t (cmqPatchMessageSubId frame t.subId)
        pubAccount pubEpoch
      let later := deliverLoop env subject frame pubAccount pubEpoch (i + 1) delivered.1 tgts
      (later.1, delivered.2.toList ++ later.2)

/-- `deliver_targets_sync`; it returns 0 if something was delivered and -1 if not. -/
def deliverTargetsSync (env : DeliverEnv) (srv : CmqServer) (tgts : List CmqDeliverTgt)
    (subject pubAccount : Bytes) (pubEpoch : Nat) (payload headers : Bytes) :
    CmqServer × List Delivery × Int :=
  if tgts = [] then (srv, [], -1)
  else
    match cmqBuildMessageFrame env.frame 0 subject payload headers with
    | none => (srv, [], -1)
    | some frame =>
      let delivered := deliverLoop env subject frame pubAccount pubEpoch 0 srv tgts
      (delivered.1, delivered.2, if delivered.2 = [] then -1 else 0)

/-! ## Publishing from inside the server -/

/-- `account_apply_rewrite`; `none` is the return value -1. -/
def accountApplyRewrite (srv : CmqServer) (account subject : Bytes) : Option Bytes :=
  if srv.accounts.mapTotal = 0 then some subject
  else
    match cmqAccountRewriteSubject srv.accounts account subject cmqMaxSubject with
    | none => none
    | some mapped =>
      if mapped.length = 0 ∨ mapped.length ≥ cmqMaxSubject then none
      else if cmqSublistPublishSubjectValid mapped then some mapped else none

/-- `account_live_hold_name` with epoch 0: the registry afterwards and whether bytes are
held; `none` is a refusal. -/
def accountLiveHoldName (mgr : CmqAccountManager) (account : Bytes) (n : Nat) :
    Option (CmqAccountManager × Bool) :=
  if n = 0 then some (mgr, false)
  else
    match cmqAccountGet mgr account with
    | none => some (mgr, false)
    | some acc =>
      if acc.maxBytesLive = 0 then some (mgr, false)
      else
        let credited := cmqAccountCreditBytesLive mgr account acc.epoch n
        if credited.2 = 0 then some (credited.1, true) else none

/-- `account_live_drop_name` with epoch 0. -/
def accountLiveDropName (mgr : CmqAccountManager) (account : Bytes) (n : Nat) (held : Bool) :
    CmqAccountManager :=
  if !held || n = 0 then mgr
  else
    match cmqAccountGet mgr account with
    | none => mgr
    | some acc => cmqAccountDebitBytesLive mgr account acc.epoch n

/-- The part of `cmq_server_publish` between the hold and the drop of the byte budget. -/
def publishMapped (env : DeliverEnv) (srv : CmqServer) (subject payload account : Bytes) :
    CmqServer × List Delivery × Int :=
  match cmqSublistMatch env.realloc srv.sublist subject with
  | none => (srv, [], -1)
  | some result =>
    match snapshotDeliverTargets env srv result.entries with
    | none => (srv, [], 0)
    | some (tgts, counter) =>
      let srv := { srv with qgRrCounter := counter }
      if tgts = [] then (srv, [], 0)
      else
        let delivered := deliverTargetsSync env srv tgts subject account 0 payload []
        (delivered.1, delivered.2.1, 0)

/-- `cmq_server_publish`.  The relay to the MQTT bridge is not part of the model. -/
def cmqServerPublish (env : DeliverEnv) (srv : CmqServer) (subject payload account : Bytes) :
    CmqServer × List Delivery × Int :=
  if subject.length = 0 ∨ subject.length ≥ cmqMaxSubject then (srv, [], -1)
  else
    match accountApplyRewrite srv account subject with
    | none => (srv, [], -1)
    | some mapped =>
      match accountLiveHoldName srv.accounts account payload.length with
      | none => (srv, [], -1)
      | some (accounts, held) =>
        let published := publishMapped env { srv with accounts } mapped payload account
        ({ published.1 with
            accounts :=
              accountLiveDropName published.1.accounts account payload.length held },
          published.2)

end CMsgQueue.Server
