import CMsgQueue.Server.DeliverSpec
import CMsgQueue.Server.SublistRun
import CMsgQueue.Server.Subscribe

/-!
# Claiming an inbox

`handle_subscribe` looks for other holders of an exact `_INBOX` subject with `cmq_sublist_match`
and inserts its own reference later, with a lock of its own.  Every access to the trie is a step,
and the steps of different clients come in any order.  The outcomes of allocations and of the
account's quota are arguments.
-/

namespace CMsgQueue.Server

open Enterprise Tokens

/-- What the environment decides during one `handle_subscribe`. -/
structure ClaimEnv where
  /-- The client is below its cap of subscriptions. -/
  room : Bool
  alloc : Bool
  claim : Nat → Bool
  /-- `cmq_account_inc_subscriptions`. -/
  credit : Int
  insert : InsertAlloc
  restore : InsertAlloc

def ClaimEnv.granted : ClaimEnv := ⟨true, true, fun _ => true, 0, .granted, .granted⟩

/-- The variables of a `handle_subscribe` that has passed the first-claim test. -/
structure SubscribeCall where
  req : SubRequest
  old : Option CmqSubEntry
  env : ClaimEnv

/-- What a handler does next. -/
inductive SubscribePc where
  /-- The account's quota. -/
  | charge (call : SubscribeCall)
  /-- `cmq_sublist_remove` of the old registration. -/
  | remove (call : SubscribeCall)
  /-- `cmq_sublist_insert`. -/
  | insert (call : SubscribeCall)
  /-- `cmq_sublist_insert` of the old registration, after a failure. -/
  | restore (call : SubscribeCall)
  /-- The last check of the account. -/
  | finish (call : SubscribeCall)

/-- The server, the id of the next client, and the handlers in progress by their client. -/
structure InboxState where
  srv : CmqServer
  nextId : Nat
  calls : Nat → Option SubscribePc

inductive InboxEvent where
  | connect (c : CmqClient)
  | disconnect (id : Nat)
  | accounts (mgr : CmqAccountManager)
  | subscribe (id : Nat) (req : SubRequest) (env : ClaimEnv)
  | resume (id : Nat)
  | unsubscribe (id subId : Nat)

namespace CmqServer

def putClient (srv : CmqServer) (c : CmqClient) : CmqServer :=
  { srv with clients := srv.clients.map fun other => if other.id = c.id then c else other }

/-- `cmq_sublist_remove` of an entry's reference. -/
def unfile (srv : CmqServer) (entry : CmqSubEntry) (client : Nat) : CmqServer :=
  { srv with
    sublist := (cmqSublistRemove srv.sublist entry.subject (some (entry.refOf client))).1 }

end CmqServer

/-- `client_force_closing`. -/
def CmqClient.forceClosing (c : CmqClient) : CmqClient :=
  if c.state = .closed ∨ c.state = .closing then c else { c with state := .closing }

def SubRequest.newEntry (req : SubRequest) : CmqSubEntry := ⟨req.subId, req.subject, req.queueGroup⟩

/-- What `handle_subscribe` has checked of a request before it looks at the client's list. -/
def requestValid (srv : CmqServer) (c : CmqClient) (req : SubRequest) : Bool :=
  req.subId != 0 && cmqSublistSubjectValid req.subject && !isInboxWildcard req.subject &&
    cmqAccountCanImport srv.accounts c.accountName req.subject

/-- An entry of the match is the exact subscription of another client with a live account. -/
def heldByOther (srv : CmqServer) (c : CmqClient) (subject : Bytes) (entry : Option CmqSubRef) :
    Bool :=
  (refClient srv entry).any fun m =>
    m.1.subject == subject && m.2.id != c.id && clientAccountLive srv m.2

/-- A server as claiming sees it: the references are in the trie itself, and the clients have what
the first-claim test looks at. -/
structure Sees (full : SubServer) (srv : CmqServer) : Prop where
  accounts : srv.accounts = full.accounts.mgr
  clients : ∀ id, (srv.findClient id).map (fun c => (c.id, c.accountName, c.accountEpoch)) =
    (full.findClient id).map fun c => (c.id, c.accountName, c.accountEpoch)

lemma requestValid_of_front (sees : Sees full srv) (same : c.accountName = holder.accountName)
    (front : subscribeFront full holder payload = .ok req) : requestValid srv c req = true := by
  unfold subscribeFront at front
  dsimp only at front
  repeat' split at front
  all_goals cases front
  simp_all [requestValid, sees.accounts]

/-- The loop over the holders of an inbox ends with a refusal if one of the references that they
have is held by another client. -/
lemma claimLoop_taken_iff (sees : Sees full srv) (same : c.id = holder.id)
    (entries : List (Option Nat)) (nudged deads : List SubEffect) :
    (∃ told, claimLoop full holder subject cap entries nudged deads = .taken told) ↔
      (entries.map (·.bind full.readRef)).any (heldByOther srv c subject) = true := by
  induction entries generalizing nudged deads with
  | nil => simp [claimLoop]
  | cons entry entries ih =>
    rw [List.map_cons, List.any_cons, Bool.or_eq_true, claimLoop, heldByOther]
    cases read : entry.bind full.readRef with
    | none => simp [refClient, ih]
    | some ref =>
      have known := sees.clients ref.client
      cases found : full.findClient ref.client with
      | none =>
        rw [found] at known
        simp [refClient, found, Option.map_eq_none_iff.mp known, ih]
      | some other =>
        rw [found] at known
        obtain ⟨client, located, parts⟩ := Option.map_eq_some_iff.mp known
        simp only [Prod.mk.injEq] at parts
        have live : clientAccountLive srv client = full.clientAccountLive other := by
          rw [clientAccountLive, SubServer.clientAccountLive, sees.accounts, parts.2.1, parts.2.2]
          rfl
        simp only [refClient, found, located, Option.bind_some, Option.map_some, Option.any_some,
          live, parts.1, same, Bool.and_eq_true, beq_iff_eq, bne_iff_ne]
        by_cases own : ref.subject ≠ subject ∨ other.id = holder.id
        · have passed : ¬ ((ref.subject = subject ∧ other.id ≠ holder.id) ∧
              full.clientAccountLive other = true) := by tauto
          rw [if_pos own, ih, or_iff_right passed]
        rw [not_or, not_not] at own
        by_cases alive : full.clientAccountLive other = true
        · simp [own, alive]
        rw [if_neg (by tauto), if_neg alive, or_iff_right fun held => alive held.2]
        split <;> exact ih _ _

/-- `handle_subscribe` up to the first-claim test and with it; `none` is SUBACK 1. -/
def subscribeBegin (srv : CmqServer) (c : CmqClient) (req : SubRequest) (env : ClaimEnv) :
    Option SubscribePc :=
  let old := c.subs.find? fun entry => entry.subId == req.subId
  if requestValid srv c req = false then none
  else if old = none ∧ env.room = false then none
  else if env.alloc = false then none
  else if isInbox req.subject = false then some (.charge ⟨req, old, env⟩)
  else
    match cmqSublistMatch env.claim srv.sublist req.subject with
    | none => none
    | some claim =>
      if claim.entries.any (heldByOther srv c req.subject) then none
      else some (.charge ⟨req, old, env⟩)

/-- The next step of a handler; it has answered when there is no further one. -/
def subscribeStep (srv : CmqServer) (c : CmqClient) : SubscribePc → CmqServer × Option SubscribePc
  | .charge call =>
    if call.old.isSome then (srv, some (.remove call))
    else if call.env.credit ≠ 0 then
      (if call.env.credit ≠ -2 then srv.setClosing c.id else srv, none)
    else if clientAccountLive srv c = false then (srv.setClosing c.id, none)
    else (srv, some (.remove call))
  | .remove call => (call.old.elim srv fun old => srv.unfile old c.id, some (.insert call))
  | .insert call =>
    let inserted := cmqSublistInsert call.env.insert srv.sublist call.req.subject
      (some (call.req.newEntry.refOf c.id))
    let srv := { srv with sublist := inserted.1 }
    if inserted.2 ≠ 0 then (srv, call.old.map fun _ => .restore call)
    else
      let subs := call.old.elim c.subs c.subs.erase
      (srv.putClient { c with subs := call.req.newEntry :: subs }, some (.finish call))
  | .restore call =>
    match call.old with
    | none => (srv, none)
    | some old =>
      let restored := cmqSublistInsert call.env.restore srv.sublist old.subject
        (some (old.refOf c.id))
      let srv := { srv with sublist := restored.1 }
      if restored.2 ≠ 0 then
        (srv.putClient { c with subs := c.subs.erase old }.forceClosing, none)
      else (srv, none)
  | .finish call =>
    if clientAccountLive srv c then (srv, none)
    else
      let entry := call.req.newEntry
      ((srv.unfile entry c.id).putClient
        { c with subs := c.subs.erase entry, state := .closing }, none)

namespace InboxState

def setCall (s : InboxState) (id : Nat) (pc : Option SubscribePc) : InboxState :=
  { s with calls := fun other => if other = id then pc else s.calls other }

def idle (s : InboxState) (id : Nat) : Option CmqClient :=
  if (s.calls id).isSome then none else s.srv.findClient id

def step (s : InboxState) : InboxEvent → InboxState
  | .connect c =>
    { s with
      srv := { s.srv with clients := s.srv.clients ++ [{ c with id := s.nextId, subs := [] }] }
      nextId := s.nextId + 1 }
  | .disconnect id =>
    match s.idle id with
    | none => s
    | some c =>
      let srv := c.subs.foldl (fun srv entry => srv.unfile entry id) s.srv
      { s with srv := { srv with clients := srv.clients.filter fun other => other.id ≠ id } }
  | .accounts mgr => { s with srv := { s.srv with accounts := mgr } }
  | .subscribe id req env =>
    match s.idle id with
    | none => s
    | some c =>
      if c.state ≠ .connected then s
      else s.setCall id (subscribeBegin s.srv c req env)
  | .resume id =>
    match s.calls id with
    | none => s
    | some pc =>
      match s.srv.findClient id with
      | none => s
      | some c =>
        let stepped := subscribeStep s.srv c pc
        { s with srv := stepped.1 }.setCall id stepped.2
  | .unsubscribe id subId =>
    match s.idle id with
    | none => s
    | some c =>
      match c.subs.find? fun entry => entry.subId == subId with
      | none => s
      | some entry =>
        let srv := s.srv.unfile entry id
        { s with srv := srv.putClient { c with subs := c.subs.erase entry } }

def run (s : InboxState) (events : List InboxEvent) : InboxState := events.foldl step s

def start (srv : CmqServer) : InboxState :=
  ⟨{ srv with clients := [], sublist := cmqSublistCreate }, 1, fun _ => none⟩

end InboxState

def CmqSublist.refs (sl : CmqSublist CmqSubRef) : List (Option CmqSubRef) :=
  (SlNode.entries sl.root).map Prod.snd

def liveId (srv : CmqServer) (id : Nat) : Bool := (srv.findClient id).any (clientAccountLive srv)

def Holds (srv : CmqServer) (subject : Bytes) (id : Nat) : Prop :=
  ∃ ref, some ref ∈ srv.sublist.refs ∧ ref.subject = subject ∧ ref.client = id ∧
    liveId srv id = true

def Exclusive (srv : CmqServer) : Prop :=
  ∀ subject, isInbox subject = true → ∀ first second,
    Holds srv subject first → Holds srv subject second → first = second

def OneReceiver (srv : CmqServer) (subject : Bytes) : Prop :=
  ∀ (env : DeliverEnv) (claim : SublistResult CmqSubRef) (tgts : List CmqDeliverTgt)
    (counter : Nat) (pubAccount : Bytes) (pubEpoch : Nat) (payload headers : Bytes),
    cmqSublistMatch env.realloc srv.sublist subject = some claim →
    snapshotDeliverTargets env srv claim.entries = some (tgts, counter) →
    ∀ first ∈ (deliverTargetsSync env srv tgts subject pubAccount pubEpoch payload headers).2.1,
    ∀ second ∈ (deliverTargetsSync env srv tgts subject pubAccount pubEpoch payload headers).2.1,
      first.target.clientId = second.target.clientId

def InboxFree (srv : CmqServer) (id : Nat) (subject : Bytes) : Prop :=
  ∀ other, Holds srv subject other → other = id

def SubscribePc.claims : SubscribePc → Option Bytes
  | .charge call | .remove call | .insert call => some call.req.subject
  | .restore _ | .finish _ => none

/-- No other handler is between its test of a subject and its insertion. -/
def Unclaimed (s : InboxState) (id : Nat) (subject : Bytes) : Prop :=
  ∀ other pc, other ≠ id → s.calls other = some pc → pc.claims ≠ some subject

/-- No handler of another client is between its test and its insertion when an inbox is
inserted; a restored inbox passes the test that the source does not make there; and a change of
the accounts brings no session back. -/
def InboxState.Unraced (s : InboxState) : InboxEvent → Prop
  | .resume id =>
    match s.calls id with
    | some (.insert call) => isInbox call.req.subject = true → Unclaimed s id call.req.subject
    | some (.restore call) => ∀ old ∈ call.old, isInbox old.subject = true →
        Unclaimed s id old.subject ∧ InboxFree s.srv id old.subject
    | _ => True
  | .accounts mgr =>
    ∀ c ∈ s.srv.clients, clientAccountLive { s.srv with accounts := mgr } c = true →
      clientAccountLive s.srv c = true
  | _ => True

end CMsgQueue.Server
