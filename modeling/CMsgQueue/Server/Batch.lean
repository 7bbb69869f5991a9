import CMsgQueue.Server.Publish

/-!
# Batches

`handle_batch` of `server/cmq_server.c`.  After a first pass of checks, later ones map the
subjects and snapshot the targets (2a), forward to the routes (2b), and deliver (2c).  A batch is
refused as a whole up to pass 2a, and nothing of it is undone after that.

The outcomes of the calls for entry `i` are those of a publish, `entry i`.
-/

namespace CMsgQueue.Server

open Crc32c Enterprise Proto

/-- `CMQ_BATCH_MAX`. -/
def cmqBatchMax : Nat := 256

/-- The places where the handler looks at the publisher's account. -/
inductive BatchRecheck where
  | prepared
  | entry (i : Nat)
  | forward (i : Nat)
  | forwarded
  | deliver (i : Nat)
  deriving DecidableEq

/-- What decompression can come back with. -/
inductive Decompressed where
  | rejected
  | outOfMemory
  | failed
  | decoded (payload : Bytes)
  deriving DecidableEq

/-- Outcomes of the calls of one `handle_batch` that the model does not determine. -/
structure BatchEnv where
  /-- `cmq_decompress_bound`, the buffer, and `cmq_decompress`. -/
  decompress : Bytes → Decompressed
  entry : Nat → PublishEnv
  stays : BatchRecheck → Bool
  /-- The array of prepared entries was allocated. -/
  prep : Bool
  /-- The buffer for the forward of an entry was allocated. -/
  pub : Nat → Bool
  routes : Option RouteCounts
  routeCount : Nat

/-- A call of `cmq_route_forward_op` for an entry; the reply subject is missing if it was read
outside of the frame. -/
structure BatchForward where
  subject : Bytes
  replyTo : Option Bytes
  payload : Bytes
  sent : Nat
  deriving DecidableEq

/-- The answer to a batch, the messages handed to clients, and the forwards. -/
structure BatchReply where
  answer : PublishAnswer
  deliveries : List Delivery
  forwards : List BatchForward
  deriving DecidableEq

def invalidBatch : Bytes := cstr "invalid batch"

def batchSubject (body : Bytes) (offset : Nat) : Except Bytes Bytes :=
  if offset + 2 > body.length then .error invalidBatch
  else
    let len := wireLen (body.drop offset)
    if len = 0 ∨ len ≥ cmqMaxSubject ∨ offset + 2 + len > body.length then .error invalidBatch
    else
      let subject := (body.drop (offset + 2)).take len
      if wireSubjectOk subject then .ok subject else .error (cstr "invalid subject")

def batchReplyLen (body : Bytes) (offset : Nat) : Except Bytes Nat :=
  if offset + 2 > body.length then .error invalidBatch
  else
    let len := wireLen (body.drop offset)
    if offset + 2 + len > body.length then .error invalidBatch
    else if len = 0 then .ok len
    else if len ≥ cmqMaxSubject then .error (cstr "invalid reply-to")
    else if wireSubjectOk ((body.drop (offset + 2)).take len) then .ok len
    else .error (cstr "invalid reply-to")

def wireLen32 (rest : Bytes) : Nat := getBe (rest.take 4)

def batchPayloadLen (body : Bytes) (offset : Nat) : Except Bytes Nat :=
  if offset + 4 > body.length then .error invalidBatch
  else
    let len := wireLen32 (body.drop offset)
    if offset + 4 + len > body.length then .error invalidBatch else .ok len

/-- The bytes with the entries: decompressed, and without the checksum. -/
def batchBody (env : BatchEnv) (frame : Frame) : Except Bytes Bytes := do
  if frame.payload.length < 2 then .error invalidBatch
  else
    let (flags, payload) ←
      if frame.hdr.flags &&& cmqFlagCompressed = 0 then .ok (frame.hdr.flags, frame.payload)
      else
        match env.decompress frame.payload with
        | .rejected => .error (cstr "compressed batch rejected")
        | .outOfMemory => .error (cstr "decompress oom")
        | .failed => .error (cstr "decompress failed")
        | .decoded payload => .ok (frame.hdr.flags &&& ~~~ cmqFlagCompressed, payload)
    if payload.length < 2 then .error invalidBatch
    else
      match cmqChecksumConsume flags payload with
      | none => .error (cstr "checksum mismatch")
      | some body =>
        if body.length < 2 ∨ wireLen body = 0 ∨ wireLen body > cmqBatchMax then
          .error invalidBatch
        else .ok body

/-- The part of the check of an entry behind its subject: the offset of the next entry. -/
def batchCheckRest (env : PublishEnv) (srv : CmqServer) (c : CmqClient) (body : Bytes)
    (offset : Nat) : Except Bytes Nat := do
  let replyLen ← batchReplyLen body offset
  let payloadLen ← batchPayloadLen body (offset + 2 + replyLen)
  if payloadExceedsCaps srv c payloadLen then .error (cstr "payload too large")
  else if env.quota = false then .error (cstr "quota exceeded")
  else .ok (offset + 2 + replyLen + 4 + payloadLen)

/-- The check of an entry: the server afterwards and the offset of the next entry. -/
def batchCheckEntry (env : PublishEnv) (srv : CmqServer) (c : CmqClient) (body : Bytes)
    (offset : Nat) : CmqServer × Except PublishAnswer Nat :=
  match batchSubject body offset with
  | .error text => (srv, .error (.error text))
  | .ok subject =>
    if !cmqAccountCanExport srv.accounts c.accountName subject then
      (srv, .error (.error (cstr "permission denied")))
    else
      let acl := aclAdmit srv.aclHeap srv.aclH subject
      ({ srv with aclHeap := acl.1 },
        match acl.2 with
        | none => .error .undefined
        | some false => .error (.error (cstr "permission denied"))
        | some true =>
          if env.subjectRl = false then .error (.error (cstr "rate limited"))
          else
            (batchCheckRest env srv c body (offset + 2 + subject.length)).mapError .error)

def batchCheck (env : BatchEnv) (c : CmqClient) (body : Bytes) :
    (count i offset : Nat) → CmqServer → CmqServer × Except PublishAnswer Nat
  | 0, _, offset, srv => (srv, .ok offset)
  | count + 1, i, offset, srv =>
    let checked := batchCheckEntry (env.entry i) srv c body offset
    match checked.2 with
    | .error answer => (checked.1, .error answer)
    | .ok next => batchCheck env c body count (i + 1) next checked.1

/-- Where the parts of an entry are, as the later passes read them. -/
structure BatchWire where
  start : Nat
  subjectLen : Nat
  replyLen : Nat
  msgStart : Nat
  payloadLen : Nat
  deriving DecidableEq

def batchWire (body : Bytes) (offset : Nat) : BatchWire :=
  let subjectLen := wireLen (body.drop offset)
  let replyLen := wireLen (body.drop (offset + 2 + subjectLen))
  let lenAt := offset + 2 + subjectLen + 2 + replyLen
  ⟨offset, subjectLen, replyLen, lenAt + 4, wireLen32 (body.drop lenAt)⟩

def BatchWire.next (wire : BatchWire) : Nat := wire.msgStart + wire.payloadLen

/-- `batch_prep_t`; the subject is the mapped one. -/
structure BatchPrep where
  wire : BatchWire
  subject : Bytes
  tgts : List CmqDeliverTgt
  liveHeld : Bool
  deriving DecidableEq

def batchPrepareEntry (env : PublishEnv) (srv : CmqServer) (c : CmqClient) (body : Bytes)
    (offset : Nat) : CmqServer × BatchPrep × Option Bytes :=
  let wire := batchWire body offset
  let subject := (body.drop (offset + 2)).take wire.subjectLen
  match accountApplyRewrite srv c.accountName subject with
  | none => (srv, ⟨wire, subject, [], false⟩, some (cstr "subject map failed"))
  | some mapped =>
    match accountLiveHold srv.accounts c wire.payloadLen with
    | none => (srv, ⟨wire, mapped, [], false⟩, some (cstr "account memory"))
    | some (accounts, held) =>
      let srv := { srv with accounts }
      match cmqSublistMatch env.deliver.realloc srv.sublist mapped with
      | none => (srv, ⟨wire, mapped, [], held⟩, some (cstr "delivery failed"))
      | some result =>
        match snapshotDeliverTargets env.deliver srv result.entries with
        | none => (srv, ⟨wire, mapped, [], held⟩, some (cstr "delivery failed"))
        | some (tgts, counter) =>
          ({ srv with qgRrCounter := counter }, ⟨wire, mapped, tgts, held⟩, none)

def batchPrepare (env : BatchEnv) (c : CmqClient) (body : Bytes) :
    (count i offset : Nat) → CmqServer → CmqServer × List BatchPrep × Option Bytes
  | 0, _, _, srv => (srv, [], none)
  | count + 1, i, offset, srv =>
    let entry := batchPrepareEntry (env.entry i) srv c body offset
    match entry.2.2 with
    | some text => (entry.1, [entry.2.1], some text)
    | none =>
      let later := batchPrepare env c body count (i + 1) entry.2.1.wire.next entry.1
      (later.1, entry.2.1 :: later.2.1, later.2.2)

/-- `BATCH_RELEASE`. -/
def batchRelease (srv : CmqServer) (c : CmqClient) (preps : List BatchPrep) : CmqServer :=
  { srv with
    accounts := preps.foldl
      (fun accounts prep => accountLiveDrop accounts c prep.wire.payloadLen prep.liveHeld)
      srv.accounts }

/-- There are peers to forward to, and none of them is there. -/
def batchRoutesDown (env : BatchEnv) (c : CmqClient) : Bool :=
  match env.routes with
  | none => false
  | some routes =>
    !c.isRoute && routes.live == 0 && routes.held == 0 &&
      (0 < routes.named || 0 < routes.targets || 0 < env.routeCount)

/-- The publisher's account is live and stays so until the handler looks again. -/
def batchStays (env : BatchEnv) (point : BatchRecheck) (srv : CmqServer) (c : CmqClient) :
    Bool :=
  clientAccountLive srv c && env.stays point

/-- Everything in front of pass 2b: the server, and the prepared entries with the bytes they
point into. -/
def batchFront (env : BatchEnv) (srv : CmqServer) (c : CmqClient) (frame : Frame) :
    CmqServer × Except PublishAnswer (Bytes × List BatchPrep) :=
  match batchBody env frame with
  | .error text => (srv, .error (.error text))
  | .ok body =>
    let checked := batchCheck env c body (wireLen body) 0 2 srv
    match checked.2 with
    | .error answer => (checked.1, .error answer)
    | .ok offset =>
      if offset ≠ body.length then (checked.1, .error (.error invalidBatch))
      else if env.prep = false then (checked.1, .error (.error (cstr "delivery failed")))
      else
        let prepared := batchPrepare env c body (wireLen body) 0 2 checked.1
        let released := batchRelease prepared.1 c prepared.2.1
        match prepared.2.2 with
        | some text => (released, .error (.error text))
        | none =>
          if batchRoutesDown env c && prepared.2.1.all fun prep => prep.tgts == [] then
            (released, .error (.error (cstr "route failed")))
          else if !batchStays env .prepared prepared.1 c then
            ((sendError released c accountInactive).1, .error (.error accountInactive))
          else (prepared.1, .ok (body, prepared.2.1))

def batchMessage (body : Bytes) (prep : BatchPrep) : Bytes :=
  (body.drop prep.wire.msgStart).take prep.wire.payloadLen

/-- The reply subject that pass 2b copies: the offset is counted with the length of the
mapped subject. -/
def batchReplyTo (body : Bytes) (prep : BatchPrep) : Option Bytes :=
  let start := prep.wire.start + 2 + prep.subject.length + 2
  if prep.wire.replyLen = 0 then some []
  else if start + prep.wire.replyLen ≤ body.length then
    some ((body.drop start).take prep.wire.replyLen)
  else none

/-- A round of pass 2b: the forward and whether the entry failed; `none` ends the batch.  The
test for an overflow of the length of the forward never holds for 32-bit lengths. -/
def batchForwardEntry (env : BatchEnv) (i : Nat) (srv : CmqServer) (c : CmqClient)
    (body : Bytes) (prep : BatchPrep) : Option (List BatchForward × Bool) :=
  if env.routes.isSome ∧ c.isRoute = false then
    if env.pub i = false then some ([], true)
    else
      let route := if batchStays env (.forward i) srv c then (env.entry i).route else (-2, 0)
      if route.1 = -2 then none
      else
        some ([⟨prep.subject, batchReplyTo body prep, batchMessage body prep, route.2⟩],
          prep.tgts == [] && cmqRouteForwardMissed (env.entry i) route.1 route.2)
  else some ([], false)

/-- What a pass over the prepared entries leaves: its output, whether an entry failed, whether
one was delivered, and whether the pass came to its end. -/
structure BatchPass (α : Type) where
  out : List α
  fail : Bool
  any : Bool
  ended : Bool

def batchForward (env : BatchEnv) (srv : CmqServer) (c : CmqClient) (body : Bytes) :
    (i : Nat) → List BatchPrep → BatchPass BatchForward
  | _, [] => ⟨[], false, false, true⟩
  | i, prep :: preps =>
    if !batchStays env (.entry i) srv c then ⟨[], false, false, false⟩
    else
      match batchForwardEntry env i srv c body prep with
      | none => ⟨[], false, false, false⟩
      | some (forwards, fail) =>
        let later := batchForward env srv c body (i + 1) preps
        ⟨forwards ++ later.out, fail || later.fail,
          (forwards.any fun forward => 0 < forward.sent) || later.any, later.ended⟩

def batchDeliver (env : BatchEnv) (c : CmqClient) (body : Bytes) :
    (i : Nat) → CmqServer → List BatchPrep → CmqServer × BatchPass Delivery
  | _, srv, [] => (srv, ⟨[], false, false, true⟩)
  | i, srv, prep :: preps =>
    if !batchStays env (.deliver i) srv c then (srv, ⟨[], false, false, false⟩)
    else if prep.tgts = [] then batchDeliver env c body (i + 1) srv preps
    else
      let delivered := deliverTargetsSync (env.entry i).deliver srv prep.tgts prep.subject
        c.accountName c.accountEpoch (batchMessage body prep) []
      let later := batchDeliver env c body (i + 1) delivered.1 preps
      (later.1,
        ⟨delivered.2.1 ++ later.2.out, delivered.2.2 != 0 || later.2.fail,
          delivered.2.2 == 0 || later.2.any, later.2.ended⟩)

/-- `handle_batch`.  Statistics are not part of the model.  The handler has neither the
duplicate window nor the log, and it calls none of the stores behind the `$` subjects. -/
def handleBatch (env : BatchEnv) (srv : CmqServer) (logs : PublishLogs) (c : CmqClient)
    (frame : Frame) : CmqServer × PublishLogs × BatchReply :=
  let front := batchFront env srv c frame
  match front.2 with
  | .error answer => (front.1, logs, ⟨answer, [], []⟩)
  | .ok (body, preps) =>
    let forward := batchForward env front.1 c body 0 preps
    if !forward.ended || !batchStays env .forwarded front.1 c then
      ((sendError (batchRelease front.1 c preps) c accountInactive).1, logs,
        ⟨.error accountInactive, [], forward.out⟩)
    else
      let deliver := batchDeliver env c body 0 front.1 preps
      let released := batchRelease deliver.1 c preps
      if !deliver.2.ended then
        ((sendError released c accountInactive).1, logs,
          ⟨.error accountInactive, deliver.2.out, forward.out⟩)
      else
        (released, logs,
          ⟨if (forward.fail || deliver.2.fail) && !(forward.any || deliver.2.any) then
              .error (cstr "batch delivery failed")
            else .accepted,
            deliver.2.out, forward.out⟩)

end CMsgQueue.Server
