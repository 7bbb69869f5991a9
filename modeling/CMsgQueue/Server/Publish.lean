import CMsgQueue.Core.Crc32c
import CMsgQueue.Server.Deliver
import CMsgQueue.Server.Idempo

/-!
# Publishing

`handle_publish` of `server/cmq_server.c` and the replay of the write-ahead log through it.  The
handler is cut where its early exits change what they leave behind.

The stores behind the handler (quota, rate limits, `$KV`, `$OBJ`, `$JS`, transactions, routes)
are outcomes in `PublishEnv`.  The handler runs as one call; where it looks at the publisher's
account again, `stays` says whether the account was left alone meanwhile.
-/

namespace CMsgQueue.Server

open Crc32c Enterprise Proto Util

/-- `CMQ_CORO_DELIVER_BATCH`. -/
def cmqCoroDeliverBatch : Nat := 16
/-- `CMQ_TXN_HDR_LEN`. -/
def cmqTxnHdrLen : Nat := 13
/-- `CMQ_TXN_VOTE_LEN`. -/
def cmqTxnVoteLen : Nat := 30
/-- `CMQ_TXN_NODE_MAX`. -/
def cmqTxnNodeMax : Nat := 16
/-- `CMQ_TXN_MAGIC`. -/
def cmqTxnMagic : Bytes := cstr "CMQT"
/-- `CMQ_TXN_BEGIN`, the least operation. -/
def cmqTxnBegin : UInt8 := 1
/-- `CMQ_TXN_PREPARE`, the greatest operation of a transaction header. -/
def cmqTxnPrepare : UInt8 := 5
/-- `CMQ_TXN_VOTE`. -/
def cmqTxnVote : UInt8 := 6

/-- The places where the handler looks at the publisher's account again. -/
inductive Recheck where
  | inflated
  | unmatched
  | snapshot
  | noTargets
  | beforeForward
  | forward
  | afterForward
  deriving DecidableEq

/-- The peers of a route pool: `cmq_route_pool_count`, `cmq_route_live_count`,
`cmq_route_held_count` and `cmq_route_target_count`. -/
structure RouteCounts where
  named : Nat
  live : Nat
  held : Nat
  targets : Nat
  deriving DecidableEq

/-- Outcomes of the calls of one `handle_publish` that the model does not determine. -/
structure PublishEnv where
  deliver : DeliverEnv
  inflate : Bytes → Option Bytes
  stays : Recheck → Bool
  /-- The return values of the transaction operations, if `srv->txn` is set. -/
  txn : Option (Nat → UInt8 → Int)
  append : Bool
  /-- There is no quota, or `cmq_quota_check_publish` lets the publish pass. -/
  quota : Bool
  /-- There is no limit, or `cmq_subject_rl_check` lets the publish pass. -/
  subjectRl : Bool
  /-- `cmq_kvb_publish`, `cmq_obj_publish` and `cmq_js_publish`, 0 without the store. -/
  kvb : Int
  obj : Int
  js : Int
  /-- `cmq_route_forward_op`: the return value and the number of peers. -/
  route : Int × Nat
  routes : Option RouteCounts
  routeCount : Nat
  coroPayload : Bool
  coroHeaders : Bool
  /-- A coroutine was created and there was room for it in the pool. -/
  coro : Bool

/-- What the publisher is told, if anything. -/
inductive PublishAnswer where
  | error (text : Bytes)
  /-- Dropped by the duplicate window without an answer. -/
  | duplicate
  | txn
  /-- Counted by `credit_msgs_in`. -/
  | accepted
  /-- The ACL check went through freed memory. -/
  | undefined
  deriving DecidableEq

/-- The answer to a publish and to whom it went: clients, a delivery coroutine, routes. -/
structure PublishReply where
  answer : PublishAnswer
  deliveries : List Delivery
  queued : List CmqDeliverTgt
  routed : Nat
  deriving DecidableEq

def PublishReply.only (answer : PublishAnswer) : PublishReply := ⟨answer, [], [], 0⟩

/-! ## The wire format -/

/-- The parts of a publish. -/
structure PublishMsg where
  subject : Bytes
  replyTo : Bytes
  headers : Bytes
  payload : Bytes
  deriving DecidableEq

def wireLen (rest : Bytes) : Nat := getBe (rest.take 2)

/-- `wire_cstr_exact` and `cmq_sublist_publish_subject_valid`. -/
def wireSubjectOk (subject : Bytes) : Bool :=
  !subject.contains 0 && cmqSublistPublishSubjectValid subject

def parseSubject (payload : Bytes) : Except Bytes (Bytes × Bytes) :=
  if payload.length < 2 then .error (cstr "invalid publish")
  else
    let len := wireLen payload
    if len = 0 ∨ len ≥ cmqMaxSubject then .error (cstr "invalid subject")
    else if 2 + len > payload.length then .error (cstr "subject too long")
    else
      let subject := (payload.drop 2).take len
      if wireSubjectOk subject then .ok (subject, payload.drop (2 + len))
      else .error (cstr "invalid subject")

/-- The reply subject, which is there if two bytes are left for its length. -/
def parseReplyTo (rest : Bytes) : Except Bytes (Bytes × Bytes) :=
  if rest.length < 2 then .ok ([], rest)
  else
    let len := wireLen rest
    if 2 + len > rest.length then .error (cstr "invalid publish")
    else if len ≥ cmqMaxSubject then .error (cstr "invalid reply-to")
    else
      let replyTo := (rest.drop 2).take len
      if len > 0 ∧ wireSubjectOk replyTo = false then .error (cstr "invalid reply-to")
      else .ok (replyTo, rest.drop (2 + len))

def parseHeaders (flags : UInt8) (rest : Bytes) : Except Bytes (Bytes × Bytes) :=
  if flags &&& cmqFlagHeaders = 0 then .ok ([], rest)
  else if rest.length < 2 then .error (cstr "invalid publish headers")
  else
    let len := wireLen rest
    if 2 + len > rest.length then .error (cstr "invalid publish headers")
    else .ok ((rest.drop 2).take len, rest.drop (2 + len))

/-- The parsing part of `handle_publish`. -/
def parsePublish (flags : UInt8) (payload : Bytes) : Except Bytes PublishMsg := do
  let (subject, rest) ← parseSubject payload
  let (replyTo, rest) ← parseReplyTo rest
  let (headers, rest) ← parseHeaders flags rest
  return ⟨subject, replyTo, headers, rest⟩

/-- The flags without `CMQ_FLAG_COMPRESSED` and the payload behind them. -/
def inflateFrame (env : PublishEnv) (frame : Frame) : Except Bytes (UInt8 × Bytes) :=
  if frame.hdr.flags &&& cmqFlagCompressed = 0 then .ok (frame.hdr.flags, frame.payload)
  else
    match env.inflate frame.payload with
    | none => .error (cstr "compressed publish rejected")
    | some decoded => .ok (frame.hdr.flags &&& ~~~ cmqFlagCompressed, decoded)

/-- The record that a plain publish has in the log, which is its payload without the
checksum, and its parts. -/
def readPlain (flags : UInt8) (payload : Bytes) : Except Bytes (Bytes × PublishMsg) :=
  match cmqChecksumConsume flags payload with
  | none => .error (cstr "checksum mismatch")
  | some record => do return (record, ← parsePublish flags record)

/-! ## In front of the duplicate window -/

/-- `payload_exceeds_caps`. -/
def payloadExceedsCaps (srv : CmqServer) (c : CmqClient) (msgLen : Nat) : Bool :=
  (0 < srv.maxPayloadSize && srv.maxPayloadSize < msgLen) ||
    (0 < c.accountMaxPayload && c.accountMaxPayload < msgLen)

/-- The publisher's account is live and stays so until the handler looks again. -/
def accountStays (env : PublishEnv) (point : Recheck) (srv : CmqServer) (c : CmqClient) : Bool :=
  clientAccountLive srv c && env.stays point

/-- The text that goes with `CMQ_CLIENT_CLOSING`. -/
def accountInactive : Bytes := cstr "account inactive"

/-- The checks in front of the duplicate window.  A compressed publish is handled again after
it was inflated, from the look at the account on. -/
def publishFront (env : PublishEnv) (srv : CmqServer) (c : CmqClient) (frame : Frame) :
    Except Bytes (Bytes × PublishMsg) := do
  if !clientAccountLive srv c then .error accountInactive
  else
    let (flags, payload) ← inflateFrame env frame
    if frame.hdr.flags &&& cmqFlagCompressed ≠ 0 ∧ !accountStays env .inflated srv c then
      .error accountInactive
    else
      let (record, msg) ← readPlain flags payload
      if payloadExceedsCaps srv c msg.payload.length then .error (cstr "payload too large")
      else if !cmqAccountCanExport srv.accounts c.accountName msg.subject then
        .error (cstr "permission denied")
      else .ok (record, msg)

/-- The error text to a client; that of an inactive account also closes it. -/
def sendError (srv : CmqServer) (c : CmqClient) (text : Bytes) : CmqServer × PublishReply :=
  (if text = accountInactive then srv.setClosing c.id else srv, .only (.error text))

/-! ## The duplicate window and transactions -/

/-- `srv->idempo` and `srv->filestore`, which only a client's publish uses: the duplicate
window and the records of the write-ahead log. -/
structure PublishLogs where
  idempo : Option CmqIdempo
  filestore : Option (List Bytes)
  deriving DecidableEq

/-- The duplicate window: an answer ends the handler. -/
def idempoGate (logs : PublishLogs) (headers : Bytes) : PublishLogs × Option PublishAnswer :=
  match logs.idempo, cmqIdempoParse headers with
  | some table, some (pid, seq) =>
    let checked := cmqIdempoCheck table pid seq
    ({ logs with idempo := some checked.1 },
      if checked.2 = 0 then some .duplicate
      else if checked.2 < 0 then some (.error (cstr "idempo full"))
      else none)
  | _, _ => (logs, none)

/-- `txn_token_safe`. -/
def txnTokenSafe (token : Bytes) : Bool :=
  token != [] && token.all fun c =>
    (0x41 ≤ c && c ≤ 0x5A) || (0x61 ≤ c && c ≤ 0x7A) || (0x30 ≤ c && c ≤ 0x39) ||
      c == 0x5F || c == 0x2D || c == 0x2E

/-- `cmq_txn_parse`: the transaction and the operation. -/
def cmqTxnParse (hdr : Bytes) : Option (Nat × UInt8) :=
  if hdr.length < cmqTxnHdrLen ∨ hdr.take 4 ≠ cmqTxnMagic then none
  else
    let tid := getBe ((hdr.drop 4).take 8)
    let op := hdr.getD 12 0
    if tid = 0 ∨ op < cmqTxnBegin ∨ op > cmqTxnPrepare then none else some (tid, op)

/-- `cmq_txn_parse_vote`: the transaction, the node and its vote. -/
def cmqTxnParseVote (hdr : Bytes) : Option (Nat × Bytes × Bool) :=
  if hdr.length < cmqTxnVoteLen ∨ hdr.take 4 ≠ cmqTxnMagic ∨ hdr.getD 12 0 ≠ cmqTxnVote then
    none
  else
    let tid := getBe ((hdr.drop 4).take 8)
    let node := ((hdr.drop 14).take (cmqTxnNodeMax - 1)).takeWhile (· != 0)
    if tid = 0 ∨ txnTokenSafe node = false then none
    else some (tid, node, hdr.getD 13 0 != 0)

/-- The messages of a transaction end the handler. -/
def txnGate (env : PublishEnv) (headers : Bytes) : Option PublishAnswer :=
  env.txn.bind fun run =>
    match cmqTxnParseVote headers with
    | some _ => some .txn
    | none =>
      (cmqTxnParse headers).map fun (tid, op) =>
        if run tid op ≠ 0 then .error (cstr "txn") else .txn

/-! ## The log and the checks behind it -/

/-- The append to the write-ahead log; its failure is only counted.  The client of a replay
has no descriptor. -/
def walAppend (env : PublishEnv) (logs : PublishLogs) (c : CmqClient) (record : Bytes) :
    PublishLogs :=
  match logs.filestore with
  | none => logs
  | some records =>
    if c.fd = -1 ∨ env.append = false then logs
    else { logs with filestore := some (records ++ [record]) }

/-- ACL, quota, rate limit and subject map: the server afterwards and the mapped subject. -/
def admitGate (env : PublishEnv) (srv : CmqServer) (c : CmqClient) (subject : Bytes) :
    CmqServer × Except PublishAnswer Bytes :=
  let acl := aclAdmit srv.aclHeap srv.aclH subject
  ({ srv with aclHeap := acl.1 },
    match acl.2 with
    | none => .error .undefined
    | some false => .error (.error (cstr "permission denied"))
    | some true =>
      if env.quota = false then .error (.error (cstr "quota exceeded"))
      else if env.subjectRl = false then .error (.error (cstr "subject rate limit"))
      else
        match accountApplyRewrite srv c.accountName subject with
        | none => .error (.error (cstr "subject map failed"))
        | some mapped => .ok mapped)

/-- The stores behind the `$` subjects. -/
def storeGate (env : PublishEnv) (subject : Bytes) : Option Bytes :=
  if subject.head? ≠ some chDollar then none
  else if env.kvb < 0 then some (cstr "kv")
  else if env.obj < 0 then some (cstr "obj")
  else if env.js < 0 then some (cstr "js")
  else none

/-- `account_live_hold`: the registry afterwards and whether bytes are held; `none` is a
refusal. -/
def accountLiveHold (mgr : CmqAccountManager) (c : CmqClient) (n : Nat) :
    Option (CmqAccountManager × Bool) :=
  if n = 0 ∨ c.accountMaxBytesLive = 0 then some (mgr, false)
  else
    let credited := cmqAccountCreditBytesLive mgr c.accountName c.accountEpoch n
    if credited.2 = 0 then some (credited.1, true) else none

/-- `account_live_drop`. -/
def accountLiveDrop (mgr : CmqAccountManager) (c : CmqClient) (n : Nat) (held : Bool) :
    CmqAccountManager :=
  if held then cmqAccountDebitBytesLive mgr c.accountName c.accountEpoch n else mgr

/-! ## The fan-out -/

/-- `cmq_route_forward_missed`. -/
def cmqRouteForwardMissed (env : PublishEnv) (rc : Int) (sent : Nat) : Bool :=
  if rc ≠ 0 ∧ sent = 0 then true
  else
    match env.routes with
    | none => false
    | some routes =>
      if routes.named > 0 ∧ routes.live = 0 ∧ sent = 0 then true
      else if routes.live = 0 then
        sent == 0 && (0 < routes.held || 0 < routes.targets || 0 < env.routeCount)
      else sent == 0

/-- `route_forward_if_live`, which is not called for a publish that came over a route. -/
def routeForwardIfLive (env : PublishEnv) (srv : CmqServer) (c : CmqClient) : Int × Nat :=
  if c.isRoute then (0, 0)
  else if !accountStays env .forward srv c then (-2, 0)
  else env.route

/-- A publish without local targets goes to the routes only. -/
def forwardOnly (env : PublishEnv) (srv : CmqServer) (c : CmqClient) :
    CmqServer × PublishReply :=
  let forwarded := routeForwardIfLive env srv c
  if forwarded.1 = -2 then sendError srv c accountInactive
  else if c.isRoute = false ∧ cmqRouteForwardMissed env forwarded.1 forwarded.2 then
    sendError srv c (cstr "route failed")
  else (srv, ⟨.accepted, [], [], forwarded.2⟩)

/-- The answer when no local target was reached: the cluster may have the message. -/
def missedAnswer (sent : Nat) : PublishAnswer :=
  if sent > 0 then .accepted else .error (cstr "delivery failed")

/-- `deliver_targets_sync` and its answer. -/
def fanOutSync (env : PublishEnv) (srv : CmqServer) (c : CmqClient) (msg : PublishMsg)
    (mapped : Bytes) (tgts : List CmqDeliverTgt) (sent : Nat) : CmqServer × PublishReply :=
  let delivered := deliverTargetsSync env.deliver srv tgts mapped c.accountName c.accountEpoch
    msg.payload msg.headers
  (delivered.1,
    ⟨if delivered.2.2 ≠ 0 then missedAnswer sent else .accepted, delivered.2.1, [], sent⟩)

/-- The local fan-out: many targets are left to a coroutine, which
`worker_coro_spawn_deliver` replaces by a synchronous delivery if it cannot have one. -/
def fanOut (env : PublishEnv) (srv : CmqServer) (c : CmqClient) (msg : PublishMsg)
    (mapped : Bytes) (tgts : List CmqDeliverTgt) (sent : Nat) : CmqServer × PublishReply :=
  if tgts.length > cmqCoroDeliverBatch ∧ srv.numWorkers > 0 then
    if env.coroPayload = false ∨ (msg.headers ≠ [] ∧ env.coroHeaders = false) then
      (srv, ⟨missedAnswer sent, [], [], sent⟩)
    else if env.coro then (srv, ⟨.accepted, [], tgts, sent⟩)
    else fanOutSync env srv c msg mapped tgts sent
  else fanOutSync env srv c msg mapped tgts sent

/-- The match, the snapshot, the forward to the routes and the local fan-out. -/
def publishFanOut (env : PublishEnv) (srv : CmqServer) (c : CmqClient) (msg : PublishMsg)
    (mapped : Bytes) : CmqServer × PublishReply :=
  match cmqSublistMatch env.deliver.realloc srv.sublist mapped with
  | none => sendError srv c (cstr "delivery failed")
  | some result =>
    if result.entries = [] then
      if !accountStays env .unmatched srv c then sendError srv c accountInactive
      else forwardOnly env srv c
    else
      match snapshotDeliverTargets env.deliver srv result.entries with
      | none => sendError srv c (cstr "delivery failed")
      | some (tgts, counter) =>
        let srv := { srv with qgRrCounter := counter }
        if !accountStays env .snapshot srv c then sendError srv c accountInactive
        else if tgts = [] then
          if !accountStays env .noTargets srv c then sendError srv c accountInactive
          else forwardOnly env srv c
        else if !accountStays env .beforeForward srv c then
          sendError srv c accountInactive
        else
          let forwarded := routeForwardIfLive env srv c
          if forwarded.1 = -2 then sendError srv c accountInactive
          else if !accountStays env .afterForward srv c then
            ((sendError srv c accountInactive).1, ⟨.error accountInactive, [], [], forwarded.2⟩)
          else fanOut env srv c msg mapped tgts forwarded.2

def publishBehind (env : PublishEnv) (srv : CmqServer) (c : CmqClient) (msg : PublishMsg) :
    CmqServer × PublishReply :=
  let admitted := admitGate env srv c msg.subject
  match admitted.2 with
  | .error answer => (admitted.1, .only answer)
  | .ok mapped =>
    match storeGate env mapped with
    | some text => sendError admitted.1 c text
    | none =>
      match accountLiveHold admitted.1.accounts c msg.payload.length with
      | none => sendError admitted.1 c (cstr "account memory")
      | some (accounts, held) =>
        let fanned := publishFanOut env { admitted.1 with accounts } c msg mapped
        ({ fanned.1 with
            accounts :=
              accountLiveDrop fanned.1.accounts c msg.payload.length held },
          fanned.2)

/-- `handle_publish`.  Tracing, statistics and the relay to the MQTT bridge are not part of
the model. -/
def handlePublish (env : PublishEnv) (srv : CmqServer) (logs : PublishLogs) (c : CmqClient)
    (frame : Frame) : CmqServer × PublishLogs × PublishReply :=
  match publishFront env srv c frame with
  | .error text =>
    let sent := sendError srv c text
    (sent.1, logs, sent.2)
  | .ok (record, msg) =>
    let checked := idempoGate logs msg.headers
    match checked.2 with
    | some answer => (srv, checked.1, .only answer)
    | none =>
      match txnGate env msg.headers with
      | some answer => (srv, checked.1, .only answer)
      | none =>
        let appended := walAppend env checked.1 c record
        let behind := publishBehind env srv c msg
        (behind.1, appended, behind.2)

/-! ## Replay -/

/-- The client that `replay_one_record` makes up. -/
def replayClient (srv : CmqServer) : CmqClient where
  id := 0
  connGen := 0
  fd := -1
  state := .init
  subs := []
  accountName := cstr "$default"
  accountEpoch := (cmqAccountGet srv.accounts (cstr "$default")).elim 0 CmqAccount.epoch
  accountMaxPayload := 0
  accountMaxBytesLive := 0
  isRoute := false
  workerId := 0

/-- The frame that `replay_one_record` makes up. -/
def replayFrame (record : Bytes) : Frame where
  hdr := ⟨cmqProtoMagic0, cmqProtoMagic1, cmqProtoVersion, 0, CmqOp.publish.code,
    record.length % 2 ^ 32⟩
  payload := record

/-- The C string at the topic of a bridge record, which has no terminator of its own;
`none` if `strnlen` leaves the record. -/
def replayTopic (record : Bytes) : Option Bytes :=
  let text := (record.drop 7).take cmqMaxSubject
  if text.contains 0 ∨ text.length = cmqMaxSubject then some (text.takeWhile (· != 0)) else none

/-- What `replay_one_record` does with a record. -/
inductive ReplayCall where
  | drop
  /-- The topic is read past the end of the record. -/
  | outside
  | bridge (subject payload : Bytes)
  | publish
  deriving DecidableEq

/-- How `replay_one_record` decodes a record. -/
def replayCall (record : Bytes) : ReplayCall :=
  if record.length ≥ 7 ∧ record.take 4 = cstr "CMQB" then
    let topicLen := getBe ((record.drop 5).take 2)
    if record.getD 4 0 ≠ 1 ∨ topicLen = 0 ∨ 7 + topicLen > record.length then .drop
    else (replayTopic record).elim .outside fun topic => .bridge topic (record.drop (7 + topicLen))
  else if record.length < 9 then .drop
  else .publish

/-- `replay_one_record`: the server afterwards and what was delivered; `none` stands for a
read outside the record. -/
def replayOneRecord (env : PublishEnv) (srv : CmqServer) (logs : PublishLogs)
    (record : Bytes) : CmqServer × PublishLogs × Option (List Delivery) :=
  match replayCall record with
  | .drop => (srv, logs, some [])
  | .outside => (srv, logs, none)
  | .bridge topic payload =>
    let published := cmqServerPublish env.deliver srv topic payload (cstr "mqtt_bridge_replay")
    (published.1, logs, some published.2.1)
  | .publish =>
    let handled := handlePublish env srv logs (replayClient srv) (replayFrame record)
    (handled.1, handled.2.1, some handled.2.2.deliveries)

def replayRecords (env : Nat → PublishEnv) :
    Nat → CmqServer → PublishLogs → List Bytes → List (Bytes × Option (List Delivery))
  | _, _, _, [] => []
  | i, srv, logs, record :: records =>
    let replayed := replayOneRecord (env i) srv logs record
    (record, replayed.2.2) :: replayRecords env (i + 1) replayed.1 replayed.2.1 records

end CMsgQueue.Server
