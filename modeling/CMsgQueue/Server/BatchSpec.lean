import CMsgQueue.Server.BatchWire
import CMsgQueue.Server.LiveBytes
import CMsgQueue.Server.PublishRun

/-!
# Batches and single publishes

What a batch does beside its entries as single publishes.
-/

namespace CMsgQueue.Server

open List Enterprise Proto

/-! ## Effects -/

/-- A message that reached a peer. -/
@[ext] structure Triple where
  subject : Bytes
  replyTo : Option Bytes
  payload : Bytes
  deriving DecidableEq

/-- What handling messages leaves outside of the server: deliveries to clients, the records of
the log, the calls of the stores behind the `$` subjects, and messages at the peers. -/
structure Effects where
  deliveries : List Delivery
  wal : Option (List Bytes)
  stores : List (Bytes × Bytes)
  forwarded : List Triple
  deriving DecidableEq

/-- The stores are called for a subject that begins with `$`. -/
def storeCalls (mapped payload : Bytes) : List (Bytes × Bytes) :=
  if mapped.head? = some chDollar then [(mapped, payload)] else []

/-- The calls of the stores that a publish makes: none unless it is admitted. -/
def publishStores (env : PublishEnv) (srv : CmqServer) (logs : PublishLogs) (c : CmqClient)
    (frame : Frame) : List (Bytes × Bytes) :=
  match publishFront env srv c frame with
  | .error _ => []
  | .ok (_, msg) =>
    if (idempoGate logs msg.headers).2.isSome || (txnGate env msg.headers).isSome then []
    else
      match (admitGate env srv c msg.subject).2 with
      | .error _ => []
      | .ok mapped => storeCalls mapped msg.payload

/-- The publish of an entry that reached a peer; the frame is forwarded as it came. -/
def BatchItem.forwarded (item : BatchItem) (reply : PublishReply) : List Triple :=
  if 0 < reply.routed then [⟨item.subject, some item.replyTo, item.payload⟩] else []

def reached (forwards : List BatchForward) : List Triple :=
  (forwards.filter fun forward => 0 < forward.sent).map fun forward =>
    ⟨forward.subject, forward.replyTo, forward.payload⟩

def publishEach (env : Nat → PublishEnv) (c : CmqClient) :
    (i : Nat) → CmqServer → PublishLogs → List BatchItem → Effects
  | _, _, logs, [] => ⟨[], logs.filestore, [], []⟩
  | i, srv, logs, item :: items =>
    let published := handlePublish (env i) srv logs c item.frame
    let later := publishEach env c (i + 1) published.1 published.2.1 items
    ⟨published.2.2.deliveries ++ later.deliveries, later.wal,
      publishStores (env i) srv logs c item.frame ++ later.stores,
      item.forwarded published.2.2 ++ later.forwarded⟩

/-- A batch.  `handle_batch` contains no call of the stores. -/
def batchEffects (env : BatchEnv) (srv : CmqServer) (logs : PublishLogs) (c : CmqClient)
    (items : List BatchItem) : Effects :=
  let handled := handleBatch env srv logs c (batchFrame items)
  ⟨handled.2.2.deliveries, handled.2.1.filestore, [], reached handled.2.2.forwards⟩

/-- Nothing gets in between in a publish: the account is left alone, no send closes its client,
and the stores do not refuse.  `cmq_route_forward_op` has no return value -2. -/
structure PublishEnv.Calm (env : PublishEnv) : Prop where
  stays : ∀ point, env.stays point = true
  opens : env.deliver.KeepsOpen
  stores : ∀ subject, storeGate env subject = none
  route : env.route.1 ≠ -2

/-- Nothing gets in between in a batch either, and its forwards are allocated.  Without a route
pool `cmq_route_forward_op` reaches nobody. -/
structure Undisturbed (env : BatchEnv) : Prop where
  stays : ∀ point, env.stays point = true
  entry : ∀ i, (env.entry i).Calm
  pub : ∀ i, env.pub i = true
  unrouted : env.routes = none → ∀ i, (env.entry i).route.2 = 0

/-- A publish with these targets delivers before it returns. -/
def Synchronous (srv : CmqServer) (tgts : List CmqDeliverTgt) : Prop :=
  tgts.length ≤ cmqCoroDeliverBatch ∨ srv.numWorkers = 0

/-- How the forward of an entry in a batch follows that of its publish: with the mapped
subject, and with the reply subject if it was read at its place. -/
structure Follows (srv : CmqServer) (c : CmqClient) (single batch : Triple) : Prop where
  subject : accountApplyRewrite srv c.accountName single.subject = some batch.subject
  payload : batch.payload = single.payload
  replyTo : batch.subject.length = single.subject.length ∨ single.replyTo = some [] →
    batch.replyTo = single.replyTo

/-- The peers that a message of the client reaches. -/
def reaches (env : PublishEnv) (c : CmqClient) : Nat := if c.isRoute then 0 else env.route.2

/-- A batch leaves nothing out of the publish of an entry: no record is appended for it, its mapped
subject is none of the stores, and if it reaches a peer its subject is not mapped. -/
structure Alike (env : PublishEnv) (srv : CmqServer) (logs : PublishLogs) (c : CmqClient)
    (item : BatchItem) : Prop where
  unlogged : logs.filestore = none ∨ c.fd = -1 ∨ env.append = false
  unstored : ∀ mapped, accountApplyRewrite srv c.accountName item.subject = some mapped →
    mapped.head? ≠ some chDollar
  unmapped : 0 < reaches env c →
    accountApplyRewrite srv c.accountName item.subject = some item.subject

/-! ## One entry in each pass -/

structure EntryChecked (env : PublishEnv) (srv : CmqServer) (c : CmqClient) (item : BatchItem) :
    Prop where
  exports : cmqAccountCanExport srv.accounts c.accountName item.subject = true
  acl : (aclAdmit srv.aclHeap srv.aclH item.subject).2 = some true
  subjectRl : env.subjectRl = true
  caps : payloadExceedsCaps srv c item.payload.length = false
  quota : env.quota = true

variable {c : CmqClient} {item : BatchItem} {env : PublishEnv} {body : Bytes} {offset next : Nat}
  {after final : CmqServer}

def checkedWire (body : Bytes) (offset : Nat) : Except Bytes BatchWire := do
  let subject ← batchSubject body offset
  let replyLen ← batchReplyLen body (offset + 2 + subject.length)
  let lenAt := offset + 2 + subject.length + 2 + replyLen
  let payloadLen ← batchPayloadLen body lenAt
  return ⟨offset, subject.length, replyLen, lenAt + 4, payloadLen⟩

/-- The parts of an entry lie one behind the other inside of the payload, and its subject fits
into the buffer for it. -/
def BatchWire.Inside (body : Bytes) (wire : BatchWire) : Prop :=
  wire.subjectLen < cmqMaxSubject ∧ wire.next ≤ body.length ∧
    wire.msgStart = wire.start + 2 + wire.subjectLen + 2 + wire.replyLen + 4

lemma batchSubject_eq_ok (read : batchSubject body offset = .ok subject) :
    subject = (body.drop (offset + 2)).take (wireLen (body.drop offset)) ∧
      subject.length = wireLen (body.drop offset) ∧ subject.length < cmqMaxSubject := by
  unfold batchSubject at read
  simp only at read
  repeat' split at read
  all_goals cases read
  rename_i fits _
  have len : ((body.drop (offset + 2)).take (wireLen (body.drop offset))).length =
      wireLen (body.drop offset) := by
    rw [length_take, length_drop]
    omega
  exact ⟨rfl, len, by omega⟩

lemma batchReplyLen_eq_ok (read : batchReplyLen body offset = .ok len) :
    len = wireLen (body.drop offset) := by
  unfold batchReplyLen at read
  simp only at read
  repeat' split at read
  all_goals cases read
  all_goals rfl

lemma batchPayloadLen_eq_ok (read : batchPayloadLen body offset = .ok len) :
    len = wireLen32 (body.drop offset) ∧ offset + 4 + len ≤ body.length := by
  unfold batchPayloadLen at read
  simp only at read
  repeat' split at read
  all_goals cases read
  exact ⟨rfl, by omega⟩

lemma checkedWire_eq_ok (checked : checkedWire body offset = .ok wire) :
    wire = batchWire body offset ∧ wire.Inside body := by
  obtain ⟨_, subjectRead, checked⟩ := bind_eq_ok checked
  obtain ⟨_, replyRead, checked⟩ := bind_eq_ok checked
  obtain ⟨_, payloadRead, checked⟩ := bind_eq_ok checked
  cases checked
  obtain ⟨-, len, short⟩ := batchSubject_eq_ok subjectRead
  obtain ⟨payload, inside⟩ := batchPayloadLen_eq_ok payloadRead
  refine ⟨?_, short, inside, rfl⟩
  rw [batchWire, payload, batchReplyLen_eq_ok replyRead, len]

/-- An entry that pass 1 accepts has passed every check with the parts that it reads. -/
lemma batchCheckEntry_passed
    (checked : batchCheckEntry env srv c body offset = (after, .ok next)) :
    ∃ subject wire, batchSubject body offset = .ok subject ∧
      checkedWire body offset = .ok wire ∧ next = wire.next ∧
      after = { srv with aclHeap := (aclAdmit srv.aclHeap srv.aclH subject).1 } ∧
      cmqAccountCanExport srv.accounts c.accountName subject = true ∧
      (aclAdmit srv.aclHeap srv.aclH subject).2 = some true ∧ env.subjectRl = true ∧
      payloadExceedsCaps srv c wire.payloadLen = false ∧ env.quota = true := by
  unfold batchCheckEntry at checked
  cases read : batchSubject body offset with
  | error text =>
    rw [read] at checked
    cases checked
  | ok subject =>
    simp only [read] at checked
    split at checked
    · cases checked
    rename_i exports
    rw [Prod.mk.injEq] at checked
    obtain ⟨rfl, outcome⟩ := checked
    split at outcome
    · cases outcome
    · cases outcome
    rename_i acl
    split at outcome
    · cases outcome
    rename_i subjectRl
    cases rest : batchCheckRest env srv c body (offset + 2 + subject.length) with
    | error text =>
      rw [rest] at outcome
      cases outcome
    | ok =>
      rw [rest] at outcome
      cases outcome
      obtain ⟨replyLen, replyRead, rest⟩ := bind_eq_ok rest
      obtain ⟨payloadLen, payloadRead, rest⟩ := bind_eq_ok rest
      split at rest
      · cases rest
      rename_i caps
      split at rest
      · cases rest
      rename_i quota
      cases rest
      refine ⟨subject, ⟨offset, subject.length, replyLen, _, payloadLen⟩, rfl, ?_, rfl, rfl,
        by simpa using exports, acl, by simpa using subjectRl, by simpa using caps,
        by simpa using quota⟩
      simp only [checkedWire, read, replyRead, payloadRead, bind, Except.bind, pure, Except.pure]

lemma batchCheckEntry_ok (at_ : EntryAt body offset item rest)
    (checked : batchCheckEntry env srv c body offset = (after, .ok next)) :
    EntryChecked env srv c item ∧
      after = { srv with aclHeap := (aclAdmit srv.aclHeap srv.aclH item.subject).1 } ∧
      next = offset + item.encode.length := by
  obtain ⟨subject, _, read, walked, rfl, rfl, exports, acl, subjectRl, caps, quota⟩ :=
    batchCheckEntry_passed checked
  obtain ⟨_, lenReads⟩ := at_.subjectLen
  obtain ⟨_, subjectReads⟩ := at_.subject
  have same := (batchSubject_eq_ok read).1
  rw [wireLen_of_reads item.subject_length_lt lenReads, subjectReads.take] at same
  obtain ⟨rfl, -⟩ := checkedWire_eq_ok walked
  subst same
  rw [batchWire_encode at_] at caps
  exact ⟨⟨exports, acl, subjectRl, caps, quota⟩, rfl, batchWire_next at_⟩

lemma batchCheck_cons {env : BatchEnv} {srv : CmqServer} {count i : Nat}
    (at_ : EntryAt body offset item rest)
    (checked : (batchCheck env c body (count + 1) i offset srv).2 = .ok next) :
    EntryChecked (env.entry i) srv c item ∧
      (batchCheck env c body count (i + 1) (offset + item.encode.length)
        { srv with aclHeap := (aclAdmit srv.aclHeap srv.aclH item.subject).1 }).2 = .ok next := by
  rw [batchCheck] at checked
  rcases first : batchCheckEntry (env.entry i) srv c body offset with ⟨_, _ | _⟩
  · rw [first] at checked
    cases checked
  obtain ⟨passed, rfl, rfl⟩ := batchCheckEntry_ok at_ first
  rw [first] at checked
  exact ⟨passed, checked⟩

structure EntryPrepared (env : PublishEnv) (srv after : CmqServer) (c : CmqClient)
    (item : BatchItem) (prep : BatchPrep) : Prop where
  mapped : accountApplyRewrite srv c.accountName item.subject = some prep.subject
  held : ∃ accounts held, accountLiveHold srv.accounts c item.payload.length =
    some (accounts, held) ∧ ∃ result counter,
      cmqSublistMatch env.deliver.realloc srv.sublist prep.subject = some result ∧
      snapshotDeliverTargets env.deliver { srv with accounts } result.entries =
        some (prep.tgts, counter) ∧
      after = { srv with accounts, qgRrCounter := counter }

variable {prep : BatchPrep}

lemma batchPrepareEntry_ok (at_ : EntryAt body offset item rest)
    (prepared : batchPrepareEntry env srv c body offset = (after, prep, none)) :
    EntryPrepared env srv after c item prep ∧ prep.wire = batchWire body offset := by
  obtain ⟨_, subjectReads⟩ := at_.subject
  rw [batchPrepareEntry, batchWire_encode at_] at prepared
  simp only [subjectReads.take] at prepared
  rw [batchWire_encode at_]
  split at prepared
  · cases prepared
  rename_i mapped rewritten
  split at prepared
  · cases prepared
  rename_i accounts held holds
  split at prepared
  · cases prepared
  rename_i result matched
  split at prepared
  · cases prepared
  rename_i tgts counter taken
  cases prepared
  exact ⟨⟨rewritten, accounts, held, holds, result, counter, matched, taken, rfl⟩, rfl⟩

variable {preps : List BatchPrep}

lemma batchPrepare_cons {env : BatchEnv} {srv : CmqServer} {count i : Nat}
    (at_ : EntryAt body offset item rest)
    (prepared : batchPrepare env c body (count + 1) i offset srv = (after, preps, none)) :
    ∃ middle prep later, EntryPrepared (env.entry i) srv middle c item prep ∧
      prep.wire = batchWire body offset ∧ preps = prep :: later ∧
      batchPrepare env c body count (i + 1) (offset + item.encode.length) middle =
        (after, later, none) := by
  rw [batchPrepare] at prepared
  rcases first : batchPrepareEntry (env.entry i) srv c body offset with
    ⟨middle, prep, _ | _⟩
  · obtain ⟨ready, wire⟩ := batchPrepareEntry_ok at_ first
    simp only [first, wire, batchWire_next at_] at prepared
    rcases rest : batchPrepare env c body count (i + 1) (offset + item.encode.length) middle with
      ⟨_, later, _⟩
    rw [rest] at prepared
    cases prepared
    exact ⟨middle, prep, later, ready, wire, rfl, rest⟩
  rw [first] at prepared
  cases prepared

/-! ## A single publish -/

section Single

variable {env : PublishEnv} {srv : CmqServer} {c : CmqClient}

lemma sent_eq_zero_of_missed (missed : cmqRouteForwardMissed env rc sent = true) : sent = 0 := by
  unfold cmqRouteForwardMissed at missed
  split at missed
  · omega
  split at missed
  · cases missed
  split at missed
  · omega
  split at missed
  · simp_all
  simpa using missed

/-- What a publish leaves when nobody interferes. -/
structure Published (env : PublishEnv) (c : CmqClient) (after : CmqServer)
    (deliveries : List Delivery) (result : CmqServer × PublishReply) : Prop where
  server : result.1 = after
  deliveries : result.2.deliveries = deliveries
  routed : result.2.routed = reaches env c

section

variable (calm : env.Calm) (live : clientAccountLive srv c = true)
include calm live

lemma accountStays_eq_true (point : Recheck) : accountStays env point srv c = true := by
  rw [accountStays, live, calm.stays point]
  rfl

lemma routeForwardIfLive_snd : (routeForwardIfLive env srv c).1 ≠ -2 ∧
    (routeForwardIfLive env srv c).2 = reaches env c := by
  rw [routeForwardIfLive, reaches, accountStays_eq_true calm live]
  cases c.isRoute with
  | true => exact ⟨(by decide : (0 : Int) ≠ -2), rfl⟩
  | false => exact ⟨calm.route, rfl⟩

lemma forwardOnly_published : Published env c srv [] (forwardOnly env srv c) := by
  obtain ⟨kept, sent⟩ := routeForwardIfLive_snd calm live
  have text : cstr "route failed" ≠ accountInactive := by decide
  rw [forwardOnly]
  simp only [if_neg kept]
  split
  · rename_i missed
    have nobody := sent_eq_zero_of_missed missed.2
    rw [sent] at nobody
    exact ⟨by rw [sendError, if_neg text], rfl, nobody.symm⟩
  exact ⟨rfl, rfl, sent⟩

lemma publishFanOut_published (msg : PublishMsg)
    (matched : cmqSublistMatch env.deliver.realloc srv.sublist mapped = some result)
    (taken : snapshotDeliverTargets env.deliver srv result.entries = some (tgts, counter))
    (sync : Synchronous srv tgts) :
    Published env c { srv with qgRrCounter := counter }
      (deliverTargetsSync env.deliver { srv with qgRrCounter := counter } tgts mapped
        c.accountName c.accountEpoch msg.payload msg.headers).2.1
      (publishFanOut env srv c msg mapped) := by
  have same := (SameView.refl srv).change (.refl _) rfl counter srv.aclHeap
  have targets := (targetsLive_of_snapshot taken).view same
  have live' : clientAccountLive { srv with qgRrCounter := counter } c = true := by
    rw [same.clientAccountLive_eq, live]
  have looks := accountStays_eq_true calm live
  have looks' := accountStays_eq_true calm live'
  rw [publishFanOut, matched]
  simp only [looks, looks', taken]
  by_cases unmatched : result.entries = []
  · rw [unmatched, snapshotDeliverTargets, if_pos rfl, Option.some.injEq] at taken
    obtain ⟨rfl, rfl⟩ := taken
    rw [if_pos unmatched]
    exact forwardOnly_published calm live
  rw [if_neg unmatched]
  by_cases none : tgts = []
  · rw [if_pos none]
    subst none
    exact forwardOnly_published calm live'
  obtain ⟨kept, sent⟩ := routeForwardIfLive_snd calm live'
  rw [if_neg none, if_neg kept]
  have here : ¬ (tgts.length > cmqCoroDeliverBatch ∧ srv.numWorkers > 0) := by
    rintro ⟨_, _⟩
    rcases sync with _ | _
    · omega
    omega
  rw [fanOut, if_neg here]
  exact ⟨deliverTargetsSync_fst calm.opens targets _ _, rfl, sent⟩

end

lemma publishFront_item (live : clientAccountLive srv c = true)
    (checked : EntryChecked env srv c item) :
    publishFront env srv c item.frame = .ok (item.record, item.msg) := by
  have caps : payloadExceedsCaps srv c item.msg.payload.length = false := checked.caps
  have exports : cmqAccountCanExport srv.accounts c.accountName item.msg.subject = true :=
    checked.exports
  have plain : item.frame.hdr.flags &&& cmqFlagCompressed = 0 :=
    (by decide : (0 : UInt8) &&& cmqFlagCompressed = 0)
  have inflated : inflateFrame env item.frame = .ok (0, item.record) := by
    rw [inflateFrame, if_pos plain]
    rfl
  have uncompressed : ¬ (item.frame.hdr.flags &&& cmqFlagCompressed ≠ 0 ∧
      (!accountStays env .inflated srv c) = true) := fun inside => inside.1 plain
  rw [publishFront, live, inflated]
  simp only [Bool.not_true, Bool.false_eq_true, if_false, bind, Except.bind, if_neg uncompressed,
    readPlain_record, caps, exports]

/-- A publish of an entry that passed the checks of a batch: it changes the server by its check
of the ACL and its snapshot only. -/
lemma handlePublish_item (logs : PublishLogs) (calm : env.Calm)
    (live : clientAccountLive srv c = true) (checked : EntryChecked env srv c item)
    (rewritten : accountApplyRewrite srv c.accountName item.subject = some mapped)
    (holds : accountLiveHold srv.accounts c item.payload.length = some (accounts, held))
    (matched : cmqSublistMatch env.deliver.realloc srv.sublist mapped = some result)
    (taken : snapshotDeliverTargets env.deliver srv result.entries = some (tgts, counter))
    (sync : Synchronous srv tgts) :
    Published env c
      { srv with
        aclHeap := (aclAdmit srv.aclHeap srv.aclH item.subject).1, qgRrCounter := counter }
      (deliverTargetsSync env.deliver srv tgts mapped c.accountName c.accountEpoch
        item.payload []).2.1
      ((handlePublish env srv logs c item.frame).1,
        (handlePublish env srv logs c item.frame).2.2) ∧
    (handlePublish env srv logs c item.frame).2.1 = walAppend env logs c item.record ∧
    publishStores env srv logs c item.frame = storeCalls mapped item.payload := by
  obtain ⟨k, added⟩ := accountLiveHold_eq holds
  have rules : SameRules srv.accounts accounts := added ▸ .addLive srv.accounts c.accountName k
  have total : accounts.mapTotal = srv.accounts.mapTotal := added ▸ rfl
  generalize heapEq : (aclAdmit srv.aclHeap srv.aclH item.subject).1 = heap
  have same := (SameView.refl srv).change rules total srv.qgRrCounter heap
  have same' := (SameView.refl srv).change rules total counter heap
  have live' : clientAccountLive { srv with aclHeap := heap, accounts } c = true := by
    rw [same.clientAccountLive_eq, live]
  have taken' : snapshotDeliverTargets env.deliver { srv with aclHeap := heap, accounts }
      result.entries = some (tgts, counter) := by
    rw [same.snapshotDeliverTargets_eq env.deliver rfl, taken]
  have fanned := publishFanOut_published calm live' item.msg matched taken' sync
  have idempo : idempoGate logs item.msg.headers = (logs, none) := by
    rcases logs with ⟨_ | _, _⟩ <;> rfl
  have txn : txnGate env item.msg.headers = none := by
    rw [txnGate]
    cases env.txn <;> rfl
  rcases fan : publishFanOut env { srv with aclHeap := heap, accounts } c item.msg mapped with
    ⟨after, reply⟩
  rw [fan] at fanned
  have admitted : admitGate env srv c item.msg.subject =
      ({ srv with aclHeap := heap }, .ok mapped) := by
    simp only [admitGate, BatchItem.msg, checked.acl, checked.quota, checked.subjectRl, rewritten,
      heapEq, Bool.true_eq_false, if_false]
  have behind : publishBehind env srv c item.msg =
      ({ after with accounts := accountLiveDrop after.accounts c item.payload.length held },
        reply) := by
    have holds' : accountLiveHold srv.accounts c item.msg.payload.length =
        some (accounts, held) := holds
    rw [publishBehind, admitted]
    simp only [calm.stores mapped, holds', fan]
    rfl
  have handled : handlePublish env srv logs c item.frame =
      ((publishBehind env srv c item.msg).1, walAppend env logs c item.record,
        (publishBehind env srv c item.msg).2) := by
    rw [handlePublish, publishFront_item live checked]
    simp only [idempo, txn]
  have stores : publishStores env srv logs c item.frame = storeCalls mapped item.payload := by
    rw [publishStores, publishFront_item live checked]
    simp only [idempo, txn, admitted]
    rfl
  rw [handled, behind]
  refine ⟨⟨?_, ?_, fanned.routed⟩, rfl, stores⟩
  · have server : after = _ := fanned.server
    simp only [server, accountLiveDrop_hold holds]
  rw [fanned.deliveries]
  exact congrArg Prod.fst
    (deliverTargetsSync_snd same' calm.opens (targetsLive_of_snapshot taken) _ _)

end Single

/-! ## The passes behind the snapshots -/

section Passes

def entryReached (env : BatchEnv) (c : CmqClient) (body : Bytes) (i : Nat) (prep : BatchPrep) :
    List Triple :=
  if 0 < reaches (env.entry i) c then
    [⟨prep.subject, batchReplyTo body prep, batchMessage body prep⟩]
  else []

variable {env : BatchEnv} {srv : CmqServer} {c : CmqClient} (calm : Undisturbed env)
  (live : clientAccountLive srv c = true)
include calm live

lemma batchStays_eq_true (point : BatchRecheck) : batchStays env point srv c = true := by
  rw [batchStays, live, calm.stays point]
  rfl

lemma batchDeliver_cons (targets : TargetsLive srv prep.tgts) (body : Bytes) (i : Nat)
    (preps : List BatchPrep) :
    (batchDeliver env c body i srv (prep :: preps)).2.out =
        (deliverTargetsSync (env.entry i).deliver srv prep.tgts prep.subject c.accountName
          c.accountEpoch (batchMessage body prep) []).2.1 ++
          (batchDeliver env c body (i + 1) srv preps).2.out ∧
      (batchDeliver env c body i srv (prep :: preps)).2.ended =
        (batchDeliver env c body (i + 1) srv preps).2.ended := by
  have looks := batchStays_eq_true calm live (.deliver i)
  have kept : (deliverTargetsSync (env.entry i).deliver srv prep.tgts prep.subject c.accountName
      c.accountEpoch (batchMessage body prep) []).1 = srv :=
    deliverTargetsSync_fst (calm.entry i).opens targets _ _
  rw [batchDeliver, looks]
  simp only [Bool.not_true, Bool.false_eq_true, if_false]
  split
  · rename_i none
    simp [none, deliverTargetsSync]
  rw [kept]
  exact ⟨rfl, rfl⟩

lemma batchForwardEntry_reached (body : Bytes) (prep : BatchPrep) (i : Nat) :
    ∃ forwards fail, batchForwardEntry env i srv c body prep = some (forwards, fail) ∧
      reached forwards = entryReached env c body i prep := by
  have looks := batchStays_eq_true calm live (.forward i)
  by_cases routed : env.routes.isSome ∧ c.isRoute = false
  · have sent : reaches (env.entry i) c = (env.entry i).route.2 := by
      rw [reaches, routed.2]
      rfl
    rw [batchForwardEntry, if_pos routed, calm.pub i, looks]
    simp only [if_true, if_neg (calm.entry i).route]
    refine ⟨_, _, rfl, ?_⟩
    rw [entryReached, sent]
    by_cases peers : 0 < (env.entry i).route.2 <;> simp [reached, peers]
  refine ⟨[], false, by rw [batchForwardEntry, if_neg routed], ?_⟩
  have nobody : reaches (env.entry i) c = 0 := by
    unfold reaches
    cases route : c.isRoute with
    | true => rfl
    | false =>
      have none : env.routes = none := by
        cases routes : env.routes with
        | none => rfl
        | some => exact absurd ⟨by rw [routes]; rfl, route⟩ routed
      simpa using calm.unrouted none i
  rw [entryReached, nobody]
  rfl

lemma batchForward_cons (body : Bytes) (prep : BatchPrep) (i : Nat) (preps : List BatchPrep) :
    reached (batchForward env srv c body i (prep :: preps)).out = entryReached env c body i prep ++
          reached (batchForward env srv c body (i + 1) preps).out ∧
      (batchForward env srv c body i (prep :: preps)).ended =
        (batchForward env srv c body (i + 1) preps).ended := by
  obtain ⟨_, _, entry, same⟩ := batchForwardEntry_reached calm live body prep i
  rw [batchForward, batchStays_eq_true calm live (.entry i), entry]
  simp only [Bool.not_true, Bool.false_eq_true, if_false, ← same]
  exact ⟨by simp [reached], trivial⟩

end Passes

/-! ## Whole batches -/

/-- Where pass 1, pass 2a and the publishes stand in front of the same entry.  The publishes
hold nothing in between; pass 2a keeps what it holds. -/
structure InStep (srv : CmqServer) (c : CmqClient) (checks prepares singles : CmqServer) :
    Prop where
  seenFirst : SameView srv checks
  seenSecond : SameView srv prepares
  held : ∃ k, prepares.accounts = srv.accounts.addLive c.accountName k
  seen : SameView srv singles
  accounts : singles.accounts = srv.accounts
  aclHeap : singles.aclHeap = checks.aclHeap
  counter : singles.qgRrCounter = prepares.qgRrCounter

lemma EntryChecked.view (checked : EntryChecked env srv c item) (same : SameView srv srv')
    (heap : srv'.aclHeap = srv.aclHeap) : EntryChecked env srv' c item where
  exports := by rw [same.rules.canExport_eq, checked.exports]
  acl := by rw [heap, same.aclH, checked.acl]
  subjectRl := checked.subjectRl
  caps := by
    have caps := checked.caps
    rw [payloadExceedsCaps] at caps ⊢
    rw [same.maxPayloadSize, caps]
  quota := checked.quota

lemma InStep.entry (inStep : InStep srv c checks prepares singles) (logs : PublishLogs)
    (calm : env.Calm) (live : clientAccountLive srv c = true)
    (checked : EntryChecked env checks c item)
    (prepared : EntryPrepared env prepares prepares' c item prep)
    (sync : Synchronous srv prep.tgts) :
    TargetsLive srv prep.tgts ∧
      (handlePublish env singles logs c item.frame).2.2.deliveries =
        (deliverTargetsSync env.deliver srv prep.tgts prep.subject c.accountName c.accountEpoch
          item.payload []).2.1 ∧
      (handlePublish env singles logs c item.frame).2.2.routed = reaches env c ∧
      (handlePublish env singles logs c item.frame).2.1 = walAppend env logs c item.record ∧
      publishStores env singles logs c item.frame = storeCalls prep.subject item.payload ∧
      InStep srv c
        { checks with aclHeap := (aclAdmit checks.aclHeap checks.aclH item.subject).1 }
        prepares' (handlePublish env singles logs c item.frame).1 := by
  obtain ⟨rewritten, accounts, held, holds, result, counter, matched, taken, rfl⟩ := prepared
  obtain ⟨k, before⟩ := inStep.held
  obtain ⟨k', after⟩ := accountLiveHold_eq holds
  have rules : SameRules prepares.accounts accounts :=
    after ▸ .addLive prepares.accounts c.accountName k'
  have total : accounts.mapTotal = prepares.accounts.mapTotal := after ▸ rfl
  have same : SameView prepares singles := inStep.seenSecond.symm.trans inStep.seen
  have same' : SameView { prepares with accounts } singles :=
    ((SameView.refl prepares).change rules total prepares.qgRrCounter prepares.aclHeap).symm.trans
      same
  have checked' := checked.view (inStep.seenFirst.symm.trans inStep.seen) inStep.aclHeap
  have rewritten' : accountApplyRewrite singles c.accountName item.subject = some prep.subject := by
    rw [same.accountApplyRewrite_eq, rewritten]
  have matched' : cmqSublistMatch env.deliver.realloc singles.sublist prep.subject =
      some result := by
    rw [same.sublist, matched]
  have taken' : snapshotDeliverTargets env.deliver singles result.entries =
      some (prep.tgts, counter) := by
    rw [same'.snapshotDeliverTargets_eq env.deliver inStep.counter, taken]
  have sync' : Synchronous singles prep.tgts := by
    rw [Synchronous, inStep.seen.numWorkers]
    exact sync
  have live' : clientAccountLive singles c = true := by rw [inStep.seen.clientAccountLive_eq, live]
  -- the publish holds less than the batch does, so its hold succeeds as well
  obtain ⟨_, _, holds'⟩ : ∃ accounts held,
      accountLiveHold singles.accounts c item.payload.length = some (accounts, held) := by
    rw [before] at holds
    rw [inStep.accounts]
    exact accountLiveHold_of_addLive holds
  obtain ⟨published, wal, stores⟩ := handlePublish_item logs calm live' checked' rewritten' holds'
    matched' taken' sync'
  have targets := targetsLive_of_snapshot taken'
  have aclH : singles.aclH = checks.aclH := by rw [inStep.seen.aclH, inStep.seenFirst.aclH]
  refine ⟨targets.view inStep.seen.symm, ?_, published.routed, wal, stores, ?_⟩
  · rw [published.deliveries]
    exact congrArg Prod.fst
      (deliverTargetsSync_snd inStep.seen.symm calm.opens targets _ _).symm
  rw [published.server]
  exact {
    seenFirst := inStep.seenFirst.change (.refl _) rfl checks.qgRrCounter _
    seenSecond := inStep.seenSecond.change rules total counter prepares.aclHeap
    held := ⟨k + k', by rw [after, before, CmqAccountManager.addLive_addLive]⟩
    seen := inStep.seen.change (.refl _) rfl counter _
    accounts := inStep.accounts
    aclHeap := by rw [inStep.aclHeap, aclH]
    counter := rfl }

/-- Pass 2b and 2c read the message of an entry where it is; the reply subject too, if the
mapped subject is as long as the one in the frame. -/
lemma follows_of_prepared (same : SameView srv prepares) (at_ : EntryAt body offset item rest)
    (prepared : EntryPrepared env prepares prepares' c item prep)
    (wire : prep.wire = batchWire body offset) :
    batchMessage body prep = item.payload ∧
      Follows srv c ⟨item.subject, some item.replyTo, item.payload⟩
        ⟨prep.subject, batchReplyTo body prep, batchMessage body prep⟩ := by
  obtain ⟨_, replyReads⟩ := at_.replyTo
  rw [batchWire_encode at_] at wire
  have message : batchMessage body prep = item.payload := by
    rw [batchMessage, wire]
    exact at_.payload.take
  refine ⟨message, ?_, message, ?_⟩
  · exact (same.accountApplyRewrite_eq _ _).symm.trans prepared.mapped
  intro placed
  simp only [batchReplyTo, wire]
  by_cases empty : item.replyTo.length = 0
  · rw [if_pos empty, length_eq_zero_iff.1 empty]
  have length : prep.subject.length = item.subject.length := by
    rcases placed with length | none
    · exact length
    rw [Option.some.injEq] at none
    exact absurd (by rw [none]; rfl) empty
  rw [if_neg empty, length, if_pos replyReads.le, replyReads.take]

/-- The passes behind the snapshots come to their ends, and they follow the publishes. -/
structure Followed (env : BatchEnv) (srv final : CmqServer) (c : CmqClient) (body : Bytes)
    (i : Nat) (preps : List BatchPrep) (single : Effects) : Prop where
  forwards : (batchForward env final c body i preps).ended = true
  delivers : (batchDeliver env c body i final preps).2.ended = true
  deliveries : (batchDeliver env c body i final preps).2.out = single.deliveries
  forwarded : List.Forall₂ (Follows srv c) single.forwarded
    (reached (batchForward env final c body i preps).out)

lemma Followed.cons {env : BatchEnv} {srv : CmqServer} {i : Nat} {reply : PublishReply}
    {single : Effects} (calm : Undisturbed env) (same : SameView srv final)
    (live : clientAccountLive srv c = true) (targets : TargetsLive srv prep.tgts)
    (delivered : reply.deliveries = (deliverTargetsSync (env.entry i).deliver srv prep.tgts
      prep.subject c.accountName c.accountEpoch item.payload []).2.1)
    (routed : reply.routed = reaches (env.entry i) c)
    (message : batchMessage body prep = item.payload)
    (follows : Follows srv c ⟨item.subject, some item.replyTo, item.payload⟩
      ⟨prep.subject, batchReplyTo body prep, batchMessage body prep⟩)
    (later : Followed env srv final c body (i + 1) preps single) (wal : Option (List Bytes))
    (stores : List (Bytes × Bytes)) :
    Followed env srv final c body i (prep :: preps)
      ⟨reply.deliveries ++ single.deliveries, wal, stores,
        item.forwarded reply ++ single.forwarded⟩ := by
  have live' : clientAccountLive final c = true := by rw [same.clientAccountLive_eq, live]
  obtain ⟨forwardOut, forwardEnded⟩ := batchForward_cons calm live' body prep i preps
  obtain ⟨deliverOut, deliverEnded⟩ := batchDeliver_cons calm live' (targets.view same) body i preps
  refine ⟨forwardEnded.trans later.forwards, deliverEnded.trans later.delivers, ?_, ?_⟩
  · rw [deliverOut, later.deliveries, message, delivered]
    exact congrArg (fun out => out.1 ++ single.deliveries)
      (deliverTargetsSync_snd same (calm.entry i).opens targets _ _)
  rw [forwardOut, BatchItem.forwarded, entryReached, routed]
  by_cases peers : 0 < reaches (env.entry i) c
  · rw [if_pos peers, if_pos peers]
    exact .cons follows later.forwarded
  rw [if_neg peers, if_neg peers]
  exact later.forwarded

/-- What the publishes of the numbered entries append to the log, give to the stores and send to
the peers. -/
structure Leaves (env : Nat → PublishEnv) (srv : CmqServer) (logs : PublishLogs) (c : CmqClient)
    (entries : List (BatchItem × Nat)) (single : Effects) : Prop where
  wal : single.wal = logs.filestore.map (· ++ (entries.filter fun entry =>
    c.fd ≠ -1 ∧ (env entry.2).append = true).map fun entry => entry.1.record)
  stores : single.stores = entries.flatMap fun entry =>
    (accountApplyRewrite srv c.accountName entry.1.subject).elim [] (storeCalls · entry.1.payload)
  forwarded : single.forwarded = (entries.filter fun entry => 0 < reaches (env entry.2) c).map
    fun entry => ⟨entry.1.subject, some entry.1.replyTo, entry.1.payload⟩

lemma Leaves.cons {env : Nat → PublishEnv} {reply : PublishReply}
    (routed : reply.routed = reaches (env i) c)
    (mapped : accountApplyRewrite srv c.accountName item.subject = some subject)
    (wal : logs' = walAppend (env i) logs c item.record)
    (later : Leaves env srv logs' c entries single) (deliveries : List Delivery) :
    Leaves env srv logs c ((item, i) :: entries)
      ⟨deliveries, single.wal, storeCalls subject item.payload ++ single.stores,
        item.forwarded reply ++ single.forwarded⟩ where
  wal := by
    rw [later.wal, wal, walAppend]
    cases stored : logs.filestore with
    | none => simp [stored]
    | some records =>
      by_cases unlogged : c.fd = -1 ∨ (env i).append = false
      · have skipped : ¬ (c.fd ≠ -1 ∧ (env i).append = true) := by
          rintro ⟨open_, appends⟩
          simp [open_, appends] at unlogged
        simp only [if_pos unlogged, stored, filter_cons, skipped, decide_false, Bool.false_eq_true,
          if_false]
      have logged : c.fd ≠ -1 ∧ (env i).append = true := by simpa using unlogged
      simp [logged]
  stores := by
    rw [flatMap_cons, mapped, later.stores]
    rfl
  forwarded := by
    rw [later.forwarded, BatchItem.forwarded, routed]
    by_cases peers : 0 < reaches (env i) c <;> simp [peers]

/-- From entry `i` on, a batch follows the publishes.  The induction is on the entries; the
three servers move on together. -/
lemma publishEach_followed {env : BatchEnv} {srv : CmqServer} (calm : Undisturbed env)
    (same : SameView srv final) (live : clientAccountLive srv c = true) (items : List BatchItem) :
    ∀ {i offset next : Nat} {checks prepares prepares' singles : CmqServer}
      {preps : List BatchPrep} (logs : PublishLogs),
      InStep srv c checks prepares singles →
      ReadsAt body offset (items.flatMap BatchItem.encode) [] →
      (batchCheck env c body items.length i offset checks).2 = .ok next →
      batchPrepare env c body items.length i offset prepares = (prepares', preps, none) →
      (∀ prep ∈ preps, Synchronous srv prep.tgts) →
      Followed env srv final c body i preps (publishEach env.entry c i singles logs items) ∧
        Leaves env.entry srv logs c (items.zipIdx i)
          (publishEach env.entry c i singles logs items) := by
  induction items with
  | nil =>
    intro i offset next checks prepares prepares' singles preps logs _ _ _ prepared _
    cases prepared
    refine ⟨⟨rfl, rfl, rfl, .nil⟩, ?_, rfl, rfl⟩
    cases stored : logs.filestore <;> simp [publishEach, stored]
  | cons item items ih =>
    intro i offset next checks prepares prepares' singles preps logs inStep reads checked
      prepared sync
    have at_ : EntryAt body offset item _ := entryAt reads.split
    have behind := reads.split.next
    obtain ⟨passed, checked⟩ := batchCheck_cons at_ checked
    obtain ⟨_, prep, _, ready, wire, rfl, goesOn⟩ := batchPrepare_cons at_ prepared
    obtain ⟨message, follows⟩ := follows_of_prepared inStep.seenSecond at_ ready wire
    obtain ⟨targets, delivered, routed, wal, stores, inStep⟩ :=
      inStep.entry logs (calm.entry i) live passed ready (sync prep mem_cons_self)
    obtain ⟨rest, leaves⟩ := ih (handlePublish (env.entry i) singles logs c item.frame).2.1 inStep
      behind checked goesOn fun prep member => sync prep (mem_cons_of_mem _ member)
    refine ⟨rest.cons calm same live targets delivered routed message follows _ _, ?_⟩
    simp only [publishEach, zipIdx_cons, stores]
    exact leaves.cons routed follows.subject wal _

/-! ## The front of a batch -/

lemma batchCheck_view (env : BatchEnv) (c : CmqClient) (body : Bytes) (count i offset : Nat)
    (srv : CmqServer) :
    ∃ heap, (batchCheck env c body count i offset srv).1 = { srv with aclHeap := heap } := by
  have entry : ∀ env offset (srv : CmqServer),
      ∃ heap, (batchCheckEntry env srv c body offset).1 = { srv with aclHeap := heap } := by
    intro env offset srv
    unfold batchCheckEntry
    repeat' split
    all_goals exact ⟨_, rfl⟩
  induction count generalizing i offset srv with
  | zero => exact ⟨srv.aclHeap, rfl⟩
  | succ count ih =>
    obtain ⟨heap, first⟩ := entry (env.entry i) offset srv
    rw [batchCheck]
    cases outcome : (batchCheckEntry (env.entry i) srv c body offset).2 with
    | error => exact ⟨heap, first⟩
    | ok next =>
      obtain ⟨heap', later⟩ := ih (i + 1) next (batchCheckEntry (env.entry i) srv c body offset).1
      exact ⟨heap', by rw [later, first]⟩

lemma batchPrepareEntry_view (env : PublishEnv) (srv : CmqServer) (c : CmqClient) (body : Bytes)
    (offset : Nat) : SameView srv (batchPrepareEntry env srv c body offset).1 := by
  unfold batchPrepareEntry
  simp only
  split
  · exact .refl srv
  split
  · exact .refl srv
  rename_i accounts held holds
  obtain ⟨k, rfl⟩ := accountLiveHold_eq holds
  have same : ∀ counter, SameView srv
      { srv with accounts := srv.accounts.addLive c.accountName k, qgRrCounter := counter } :=
    fun counter => (SameView.refl srv).change (.addLive _ _ _) rfl counter srv.aclHeap
  split
  · exact same srv.qgRrCounter
  split
  · exact same srv.qgRrCounter
  exact same _

lemma batchPrepare_view (env : BatchEnv) (c : CmqClient) (body : Bytes) (count i offset : Nat)
    (srv : CmqServer) : SameView srv (batchPrepare env c body count i offset srv).1 := by
  induction count generalizing i offset srv with
  | zero => exact .refl srv
  | succ count ih =>
    have first := batchPrepareEntry_view (env.entry i) srv c body offset
    rw [batchPrepare]
    split
    · exact first
    exact first.trans (ih _ _ _)

lemma batchBody_batchFrame {env : BatchEnv} {items : List BatchItem}
    (read : batchBody env (batchFrame items) = .ok body) : body = batchBytes items := by
  have plain : (batchFrame items).hdr.flags &&& cmqFlagCompressed = 0 :=
    (by decide : (0 : UInt8) &&& cmqFlagCompressed = 0)
  have whole : Crc32c.cmqChecksumConsume (batchFrame items).hdr.flags (batchFrame items).payload =
      some (batchBytes items) :=
    (rfl : Crc32c.cmqChecksumConsume 0 (batchBytes items) = some (batchBytes items))
  simp only [batchBody, whole, bind, Except.bind] at read
  repeat' split at read
  all_goals cases read
  rfl

lemma batchFront_passed {env : BatchEnv} {srv : CmqServer} {frame : Frame}
    (front : batchFront env srv c frame = (final, .ok (body, preps))) :
    batchBody env frame = .ok body ∧ clientAccountLive final c = true ∧
      (∃ next, (batchCheck env c body (wireLen body) 0 2 srv).2 = .ok next) ∧
      batchPrepare env c body (wireLen body) 0 2 (batchCheck env c body (wireLen body) 0 2 srv).1 =
        (final, preps, none) := by
  rw [batchFront] at front
  cases read : batchBody env frame with
  | error =>
    rw [read] at front
    cases front
  | ok bytes =>
    simp only [read] at front
    cases checked : (batchCheck env c bytes (wireLen bytes) 0 2 srv).2 with
    | error =>
      rw [checked] at front
      cases front
    | ok next =>
      rcases prepared : batchPrepare env c bytes (wireLen bytes) 0 2
        (batchCheck env c bytes (wireLen bytes) 0 2 srv).1 with ⟨_, _, _⟩
      simp only [checked, prepared] at front
      repeat' split at front
      all_goals cases front
      rename_i looks _ _
      rw [batchStays, Bool.not_eq_true', Bool.not_eq_false, Bool.and_eq_true] at looks
      exact ⟨rfl, looks.1, ⟨next, checked⟩, prepared⟩

/-! ## Batches and publishes -/

lemma Follows.eq_iff {srv : CmqServer} {single batch : List Triple}
    (follows : List.Forall₂ (Follows srv c) single batch) :
    batch = single ↔ ∀ triple ∈ single,
      accountApplyRewrite srv c.accountName triple.subject = some triple.subject := by
  induction follows with
  | nil => simp
  | @cons triple triple' singles batches follows _ ih =>
    rw [cons.injEq, forall_mem_cons, ih]
    refine and_congr_left fun _ => ⟨?_, fun unmapped => ?_⟩
    · rintro rfl
      exact follows.subject
    have subject : triple'.subject = triple.subject := by
      have mapped := follows.subject
      rw [unmapped, Option.some.injEq] at mapped
      exact mapped.symm
    exact Triple.ext subject (follows.replyTo (.inl (by rw [subject]))) follows.payload

/-- What the publishes leave beside their deliveries is what a batch leaves if and only if the batch
leaves nothing out of any entry. -/
lemma Leaves.alike_iff {env : Nat → PublishEnv} (leaves : Leaves env srv logs c entries single)
    (follows : List.Forall₂ (Follows srv c) single.forwarded batch) :
    (logs.filestore = single.wal ∧ [] = single.stores ∧ batch = single.forwarded) ↔
      ∀ entry ∈ entries, Alike (env entry.2) srv logs c entry.1 := by
  have wal : logs.filestore = single.wal ↔ ∀ entry ∈ entries,
      logs.filestore = none ∨ c.fd = -1 ∨ (env entry.2).append = false := by
    rw [leaves.wal]
    cases logs.filestore with
    | none => simp
    | some records =>
      simp only [Option.map_some, Option.some.injEq, self_eq_append_right, map_eq_nil_iff,
        filter_eq_nil_iff]
      refine forall₂_congr fun entry _ => ?_
      by_cases closed : c.fd = -1 <;> simp [closed]
  have stores : [] = single.stores ↔ ∀ entry ∈ entries, ∀ mapped,
      accountApplyRewrite srv c.accountName entry.1.subject = some mapped →
        mapped.head? ≠ some chDollar := by
    rw [leaves.stores, eq_comm, flatMap_eq_nil_iff]
    refine forall₂_congr fun entry _ => ?_
    cases accountApplyRewrite srv c.accountName entry.1.subject with
    | none => simp
    | some mapped => simp [storeCalls]
  have forwarded : batch = single.forwarded ↔ ∀ entry ∈ entries, 0 < reaches (env entry.2) c →
      accountApplyRewrite srv c.accountName entry.1.subject = some entry.1.subject := by
    rw [Follows.eq_iff follows, leaves.forwarded, forall_mem_map]
    simp only [mem_filter, decide_eq_true_eq, and_imp]
  rw [wal, stores, forwarded]
  exact ⟨fun ⟨wal, stores, forwarded⟩ entry mem => ⟨wal entry mem, stores entry mem,
    forwarded entry mem⟩, fun alike => ⟨fun entry mem => (alike entry mem).unlogged,
    fun entry mem => (alike entry mem).unstored, fun entry mem => (alike entry mem).unmapped⟩⟩

def BatchEnv.granted : BatchEnv where
  decompress := fun _ => .failed
  entry := fun _ => .granted
  stays := fun _ => true
  prep := true
  pub := fun _ => true
  routes := none
  routeCount := 0

lemma BatchEnv.undisturbed_granted : Undisturbed .granted where
  stays := fun _ => rfl
  entry := by
    intro i
    refine ⟨fun _ => rfl, fun _ => nofun, fun _ => ?_, (by decide : (0 : Int) ≠ -2)⟩
    unfold storeGate
    split <;> rfl
  pub := fun _ => rfl
  unrouted := fun _ _ => rfl

/-- An entry for the subject `a`. -/
def sampleItem : BatchItem :=
  ⟨cstr "a", [], cstr "hello", by decide, by decide, by decide, by decide, by decide, by decide⟩

def kvItem : BatchItem :=
  ⟨cstr "$KV.b.k", [], cstr "v", by decide, by decide, by decide, by decide, by decide, by decide⟩

def samplePublisher : CmqClient :=
  ⟨9, 1, 4, .connected, [], cstr "$default", 1, 0, 0, false, -1⟩

end CMsgQueue.Server
