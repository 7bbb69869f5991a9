import CMsgQueue.Server.DeliverSpec

/-!
# What a delivery sees of the server

Servers that agree on the clients, the subscriptions and the rules of the accounts deliver alike.
Unless a send closes its client, a delivery also leaves the server as it was.
-/

namespace CMsgQueue.Server

open List Enterprise Proto

/-- Two servers that differ in held bytes, the round-robin counter and the heap of the ACL
only. -/
structure SameView (srv srv' : CmqServer) : Prop where
  rules : SameRules srv.accounts srv'.accounts
  mapTotal : srv'.accounts.mapTotal = srv.accounts.mapTotal
  sublist : srv'.sublist = srv.sublist
  clients : srv'.clients = srv.clients
  numWorkers : srv'.numWorkers = srv.numWorkers
  currentWorker : srv'.currentWorker = srv.currentWorker
  maxPayloadSize : srv'.maxPayloadSize = srv.maxPayloadSize
  aclH : srv'.aclH = srv.aclH

namespace SameRules

variable {mgr mgr' : CmqAccountManager}

variable (same : SameRules mgr mgr')
include same

lemma trans (next : SameRules mgr' mgr'') : SameRules mgr mgr'' :=
  ⟨next.accounts.trans same.accounts, next.perms.trans same.perms⟩

lemma symm : SameRules mgr' mgr :=
  ⟨same.accounts.symm, same.perms.symm⟩

lemma isActive_eq (name : Bytes) : accountIsActive mgr' name = accountIsActive mgr name := by
  have byKey : ∀ accounts : List CmqAccount, accounts.any (CmqAccount.isNamed name) =
      (accounts.map accountKey).any fun key => key.2.1 && key.1 == name := by
    intro accounts
    rw [any_map]
    rfl
  rw [accountIsActive, accountIsActive, byKey, byKey, same.accounts]

lemma canExport_eq (account subject : Bytes) :
    cmqAccountCanExport mgr' account subject = cmqAccountCanExport mgr account subject := by
  rw [cmqAccountCanExport, cmqAccountCanExport, same.isActive_eq, findPerms, findPerms, same.perms]

lemma mayDeliver_eq (pubAccount subAccount subject : Bytes) :
    cmqAccountMayDeliver mgr' pubAccount subAccount subject =
      cmqAccountMayDeliver mgr pubAccount subAccount subject := by
  simp only [cmqAccountMayDeliver, same.isActive_eq, findPerms, same.perms]

lemma get_epoch (name : Bytes) :
    (cmqAccountGet mgr' name).map CmqAccount.epoch =
      (cmqAccountGet mgr name).map CmqAccount.epoch := by
  have keys := congrArg (Option.map fun key : Bytes × Bool × Nat => key.2.2) (same.get_key name)
  rwa [Option.map_map, Option.map_map] at keys

end SameRules

namespace SameView

variable {srv srv' : CmqServer}

lemma refl (srv : CmqServer) : SameView srv srv :=
  ⟨.refl _, rfl, rfl, rfl, rfl, rfl, rfl, rfl⟩

variable (same : SameView srv srv')
include same

lemma symm : SameView srv' srv :=
  ⟨same.rules.symm, same.mapTotal.symm, same.sublist.symm, same.clients.symm,
    same.numWorkers.symm, same.currentWorker.symm, same.maxPayloadSize.symm, same.aclH.symm⟩

lemma trans (next : SameView srv' srv'') : SameView srv srv'' :=
  ⟨same.rules.trans next.rules, next.mapTotal.trans same.mapTotal,
    next.sublist.trans same.sublist, next.clients.trans same.clients,
    next.numWorkers.trans same.numWorkers, next.currentWorker.trans same.currentWorker,
    next.maxPayloadSize.trans same.maxPayloadSize, next.aclH.trans same.aclH⟩

lemma change (rules : SameRules srv'.accounts accounts)
    (total : accounts.mapTotal = srv'.accounts.mapTotal) (counter : Nat)
    (heap : Util.RchHeap CmqAcl) :
    SameView srv { srv' with accounts, qgRrCounter := counter, aclHeap := heap } :=
  ⟨same.rules.trans rules, total.trans same.mapTotal, same.sublist, same.clients,
    same.numWorkers, same.currentWorker, same.maxPayloadSize, same.aclH⟩

lemma clientAccountLive_eq (c : CmqClient) :
    clientAccountLive srv' c = clientAccountLive srv c := by
  have epochs := same.rules.get_epoch c.accountName
  unfold clientAccountLive
  cases new : cmqAccountGet srv'.accounts c.accountName <;>
    cases old : cmqAccountGet srv.accounts c.accountName <;> simp_all

lemma pubAccountEpochLive_eq (account : Bytes) (epoch : Nat) :
    pubAccountEpochLive srv' account epoch = pubAccountEpochLive srv account epoch := by
  have epochs := same.rules.get_epoch account
  unfold pubAccountEpochLive
  cases new : cmqAccountGet srv'.accounts account <;>
    cases old : cmqAccountGet srv.accounts account <;> simp_all

lemma accountApplyRewrite_eq (account subject : Bytes) :
    accountApplyRewrite srv' account subject = accountApplyRewrite srv account subject := by
  simp only [accountApplyRewrite, same.mapTotal, cmqAccountRewriteSubject, findPerms,
    same.rules.perms]

lemma findClient_eq (id : Nat) : srv'.findClient id = srv.findClient id := by
  rw [CmqServer.findClient, CmqServer.findClient, same.clients]

lemma refClient_eq : refClient srv' = refClient srv := by
  funext entry
  simp only [refClient, same.findClient_eq]

lemma snapshotLive_eq : snapshotLive srv' = snapshotLive srv := by
  funext c
  rw [snapshotLive, snapshotLive, same.clientAccountLive_eq]

lemma inGroup_eq (env : DeliverEnv) : inGroup env srv' = inGroup env srv := by
  funext first entry
  rw [inGroup, inGroup, same.refClient_eq]

lemma groupMembers_eq (env : DeliverEnv) : groupMembers env srv' = groupMembers env srv := by
  funext first entries
  rw [groupMembers, groupMembers, same.refClient_eq, same.snapshotLive_eq, same.inGroup_eq]

lemma snapshotLoop_eq (env : DeliverEnv) (fuel : Nat) (entries : List (Option CmqSubRef × Bool))
    (counter : Nat) :
    snapshotLoop env srv' fuel entries counter = snapshotLoop env srv fuel entries counter := by
  induction fuel generalizing entries counter with
  | zero => rfl
  | succ fuel ih =>
    cases entries with
    | nil => rfl
    | cons _ entries =>
      simp only [snapshotLoop, same.refClient_eq, same.snapshotLive_eq, same.inGroup_eq,
        same.groupMembers_eq, ih]

lemma snapshotDeliverTargets_eq (env : DeliverEnv) (counter : srv'.qgRrCounter = srv.qgRrCounter)
    (entries : List (Option CmqSubRef)) :
    snapshotDeliverTargets env srv' entries = snapshotDeliverTargets env srv entries := by
  rw [snapshotDeliverTargets, snapshotDeliverTargets, counter, same.snapshotLoop_eq]

end SameView

def DeliverEnv.KeepsOpen (env : DeliverEnv) : Prop := ∀ i, env.send i ≠ .forceClosed

def TargetsLive (srv : CmqServer) (tgts : List CmqDeliverTgt) : Prop :=
  ∀ t ∈ tgts, ∀ c, srv.findClient t.clientId = some c → clientAccountLive srv c = true

lemma TargetsLive.view (live : TargetsLive srv tgts)
    (same : SameView srv srv') : TargetsLive srv' tgts := by
  intro t member c found
  rw [same.findClient_eq] at found
  rw [same.clientAccountLive_eq]
  exact live t member c found

lemma targetsLive_of_snapshot
    (taken : snapshotDeliverTargets env srv entries = some (tgts, counter)) :
    TargetsLive srv tgts := by
  intro t member c found
  obtain ⟨_, m, -, located, live, rfl⟩ := targetOf_of_taken taken member
  simp only [refClient, Option.bind_eq_some_iff, Option.map_eq_some_iff] at located
  obtain ⟨ref, -, client, pointed, rfl⟩ := located
  have id : client.id = ref.client := by
    have tested := List.find?_some pointed
    simpa using tested
  -- the id in the target leads back to the client it was taken from
  simp only [cmqFillDeliverTgt] at found
  rw [id, pointed, Option.some.injEq] at found
  subst found
  rw [snapshotLive, Bool.and_eq_true] at live
  exact live.1

section Deliver

variable {srv srv' : CmqServer}

lemma clientSendHere_snd (same : SameView srv srv') (outcome : SendOutcome) (t : CmqDeliverTgt) :
    (clientSendHere outcome srv' t frame account epoch).2 =
      (clientSendHere outcome srv t frame account epoch).2 := by
  unfold clientSendHere
  rw [same.findClient_eq]
  split
  · rfl
  simp only [same.clientAccountLive_eq, deliverAclOk, same.pubAccountEpochLive_eq,
    same.rules.mayDeliver_eq]
  repeat' split
  all_goals rfl

lemma deliverTo_fst (opens : env.KeepsOpen) (i : Nat)
    (live : ∀ c, srv.findClient t.clientId = some c → clientAccountLive srv c = true) :
    (deliverTo env i srv t frame account epoch).1 = srv := by
  unfold deliverTo
  split
  · split <;> rfl
  unfold clientSendHere
  split
  · rfl
  rename_i c found
  rw [live c found]
  repeat' split
  all_goals first | rfl | exact absurd ‹_› (opens i) | contradiction

lemma deliverTo_snd (same : SameView srv srv') (i : Nat) (t : CmqDeliverTgt) :
    (deliverTo env i srv' t frame account epoch).2 =
      (deliverTo env i srv t frame account epoch).2 := by
  have worker : onWorker srv' t = onWorker srv t := by rw [onWorker, onWorker, same.numWorkers]
  rw [deliverTo, deliverTo, worker, same.currentWorker]
  by_cases crosses : (onWorker srv t && srv.currentWorker ≠ t.workerId) = true
  · rw [if_pos crosses]
    split <;> rfl
  rw [if_neg crosses, if_neg crosses]
  simp only [clientSendHere_snd same]

lemma deliverLoop_fst (opens : env.KeepsOpen) (i : Nat) (live : TargetsLive srv tgts) :
    (deliverLoop env subject frame account epoch i srv tgts).1 = srv := by
  induction tgts generalizing i with
  | nil => rfl
  | cons t tgts ih =>
    have later : TargetsLive srv tgts := fun t' member => live t' (mem_cons_of_mem _ member)
    simp only [deliverLoop]
    split
    · exact ih (i + 1) later
    rw [deliverTo_fst opens i (live t mem_cons_self)]
    exact ih (i + 1) later

/-- The loop delivers alike on both servers.  The induction carries the servers along, which
stay as they are. -/
lemma deliverLoop_snd (same : SameView srv srv') (opens : env.KeepsOpen) (i : Nat)
    (live : TargetsLive srv tgts) :
    (deliverLoop env subject frame account epoch i srv' tgts).2 =
      (deliverLoop env subject frame account epoch i srv tgts).2 := by
  induction tgts generalizing i with
  | nil => rfl
  | cons t tgts ih =>
    have later : TargetsLive srv tgts := fun t' member => live t' (mem_cons_of_mem _ member)
    have first := live t mem_cons_self
    have first' := live.view same t mem_cons_self
    simp only [deliverLoop, same.pubAccountEpochLive_eq, same.rules.mayDeliver_eq]
    split
    · exact ih (i + 1) later
    rw [deliverTo_fst opens i first, deliverTo_fst opens i first', deliverTo_snd same]
    simp only [ih (i + 1) later]

lemma deliverTargetsSync_fst (opens : env.KeepsOpen) (live : TargetsLive srv tgts)
    (payload headers : Bytes) :
    (deliverTargetsSync env srv tgts subject account epoch payload headers).1 = srv := by
  unfold deliverTargetsSync
  split
  · rfl
  split
  · rfl
  exact deliverLoop_fst opens 0 live

lemma deliverTargetsSync_snd (same : SameView srv srv') (opens : env.KeepsOpen)
    (live : TargetsLive srv tgts) (payload headers : Bytes) :
    (deliverTargetsSync env srv' tgts subject account epoch payload headers).2 =
      (deliverTargetsSync env srv tgts subject account epoch payload headers).2 := by
  unfold deliverTargetsSync
  split
  · rfl
  split
  · rfl
  simp only [deliverLoop_snd same opens 0 live]

end Deliver

end CMsgQueue.Server
