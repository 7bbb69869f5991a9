import CMsgQueue.Server.Deliver

/-!
# What a publish delivers

The snapshot holds a target for every live subscriber outside queue groups and for one
live member of each queue group that has one.  `cmq_server_publish` then delivers to none
of them: it passes epoch 0, which no account ever has.
-/

namespace CMsgQueue.Server

open List Enterprise Proto

/-! ## The snapshot -/

variable {srv : CmqServer} {env : DeliverEnv} {entries : List (Option CmqSubRef × Bool)}

/-- What the members of a queue group share. -/
structure GroupKey where
  subject : Bytes
  queueGroup : Bytes
  account : Bytes
  deriving DecidableEq

def groupKey (m : Matched) : GroupKey := ⟨m.1.subject, m.1.queueGroup, m.2.accountName⟩

def unused (srv : CmqServer) (entries : List (Option CmqSubRef × Bool)) : List Matched :=
  (entries.filter fun entry => !entry.2).filterMap fun entry => refClient srv entry.1

variable {entry : Option CmqSubRef × Bool} {m : Matched}

lemma unused_cons_used (used : entry.2 = true) :
    unused srv (entry :: entries) = unused srv entries := by
  simp [unused, used]

lemma unused_cons (notUsed : ¬ entry.2 = true) :
    unused srv (entry :: entries) = (refClient srv entry.1).toList ++ unused srv entries := by
  cases found : refClient srv entry.1 <;> simp [unused, notUsed, found]

/-- The hashes never keep members of a group apart. -/
lemma sameGroup_eq (env : DeliverEnv) (grouped : first.1.queueGroup ≠ []) :
    sameGroup env first = fun other => decide (groupKey other = groupKey first) := by
  funext other
  rw [Bool.eq_iff_iff, decide_eq_true_iff]
  simp only [sameGroup, groupKey, Bool.and_eq_true, beq_iff_eq, GroupKey.mk.injEq]
  constructor
  · rintro ⟨⟨⟨-, group⟩, subject⟩, account⟩
    exact ⟨subject, group, account⟩
  rintro ⟨subject, group, account⟩
  simp [group, subject, account, grouped, qgHash]

lemma groupMembers_eq_unused (env : DeliverEnv) (grouped : first.1.queueGroup ≠ []) :
    groupMembers env srv first entries =
      ((unused srv entries).filter fun m => groupKey m = groupKey first).filter
        fun m => snapshotLive srv m.2 := by
  rw [groupMembers]
  congr 1
  induction entries with
  | nil => rfl
  | cons entry entries ih =>
    rw [filter_cons, inGroup, sameGroup_eq env grouped]
    by_cases used : entry.2 = true
    · simpa [used, unused_cons_used used] using ih
    rw [unused_cons used, filter_append, ← ih]
    cases found : refClient srv entry.1 with
    | none => simp [used]
    | some m => by_cases member : groupKey m = groupKey first <;> simp [used, member, found]

lemma unused_marked (env : DeliverEnv) (grouped : first.1.queueGroup ≠ []) :
    unused srv (entries.map fun other => (other.1, other.2 || inGroup env srv first other)) =
      (unused srv entries).filter fun m => groupKey m ≠ groupKey first := by
  induction entries with
  | nil => rfl
  | cons entry entries ih =>
    rw [map_cons]
    by_cases used : entry.2 = true
    · rw [unused_cons_used used, unused_cons_used (by simp [used]), ih]
    rw [unused_cons used, filter_append, ← ih, inGroup, sameGroup_eq env grouped]
    cases found : refClient srv entry.1 with
    | none => simp [unused, used, found]
    | some m => by_cases member : groupKey m = groupKey first <;> simp [unused, used, found, member]

lemma mem_groupMembers (env : DeliverEnv) (grouped : first.1.queueGroup ≠ []) :
    m ∈ groupMembers env srv first entries ↔
      m ∈ unused srv entries ∧ groupKey m = groupKey first ∧ snapshotLive srv m.2 = true := by
  simp only [groupMembers_eq_unused env grouped, mem_filter, decide_eq_true_iff, and_assoc]

lemma unused_marked_cons (env : DeliverEnv) (grouped : first.1.queueGroup ≠ [])
    (notUsed : ¬ entry.2 = true) (found : refClient srv entry.1 = some first) :
    unused srv (entries.map fun other => (other.1, other.2 || inGroup env srv first other)) =
      (unused srv (entry :: entries)).filter fun m => groupKey m ≠ groupKey first := by
  rw [unused_cons notUsed, found, unused_marked env grouped]
  simp

/-- The targets are the live references outside of queue groups, each of them once, and one live
member of every queue group that has one. -/
def ExactTargets (srv : CmqServer) (matched : List Matched) (tgts : List CmqDeliverTgt) : Prop :=
  ∃ picks : List Matched,
    tgts.Perm (((matched.filter fun m => m.1.queueGroup = [] ∧ snapshotLive srv m.2 = true) ++
      picks).map fun m => cmqFillDeliverTgt m.1 m.2) ∧
    (∀ m ∈ picks, m ∈ matched ∧ m.1.queueGroup ≠ [] ∧ snapshotLive srv m.2 = true) ∧
    (picks.map groupKey).Nodup ∧
    ∀ m ∈ matched, m.1.queueGroup ≠ [] → snapshotLive srv m.2 = true →
      groupKey m ∈ picks.map groupKey

namespace ExactTargets

variable {tgts : List CmqDeliverTgt}

lemma cons_plain (plain : first.1.queueGroup = []) (exact : ExactTargets srv matched tgts) :
    ExactTargets srv (first :: matched)
      (if snapshotLive srv first.2 then cmqFillDeliverTgt first.1 first.2 :: tgts else tgts) := by
  obtain ⟨picks, perm, sound, nodup, complete⟩ := exact
  refine ⟨picks, ?_, fun m member => ⟨.tail _ (sound m member).1, (sound m member).2⟩, nodup,
    fun m member grouped => complete m ?_ grouped⟩
  · by_cases live : snapshotLive srv first.2 = true <;> simpa [live, plain] using perm
  exact (mem_cons.mp member).resolve_left fun same => grouped (same ▸ plain)

lemma of_others (grouped : key.queueGroup ≠ [])
    (exact : ExactTargets srv (matched.filter fun m => groupKey m ≠ key) tgts)
    (picked : Option Matched)
    (sound : ∀ m ∈ picked, m ∈ matched ∧ groupKey m = key ∧ snapshotLive srv m.2 = true)
    (complete : picked = none → ∀ m ∈ matched, groupKey m = key → snapshotLive srv m.2 = false) :
    ExactTargets srv matched (picked.toList.map (fun m => cmqFillDeliverTgt m.1 m.2) ++ tgts) := by
  obtain ⟨picks, perm, soundOthers, nodup, completeOthers⟩ := exact
  have plain : (matched.filter fun m => groupKey m ≠ key).filter
      (fun m => m.1.queueGroup = [] ∧ snapshotLive srv m.2 = true) =
      matched.filter fun m => m.1.queueGroup = [] ∧ snapshotLive srv m.2 = true := by
    rw [filter_filter]
    refine filter_congr fun m _ => ?_
    by_cases single : m.1.queueGroup = []
    · have other : groupKey m ≠ key := fun same => grouped (same ▸ single)
      simp [other]
    simp [single]
  rw [plain, map_append] at perm
  refine ⟨picked.toList ++ picks, ?_, fun m member => ?_, ?_, fun m member groupedM live => ?_⟩
  · rw [map_append, map_append]
    exact (perm.append_left _).trans (perm_append_comm_assoc _ _ _)
  · rcases mem_append.mp member with here | other
    · obtain ⟨inside, same, live⟩ := sound m (Option.mem_toList.mp here)
      exact ⟨inside, fun single => grouped (same ▸ single), live⟩
    exact ⟨(mem_filter.mp (soundOthers m other).1).1, (soundOthers m other).2⟩
  · rw [map_append, nodup_append]
    refine ⟨by cases picked <;> simp, nodup, ?_⟩
    simp only [mem_map, Option.mem_toList]
    rintro _ ⟨m, here, rfl⟩ _ ⟨m', other, rfl⟩ same
    have apart := (mem_filter.mp (soundOthers m' other).1).2
    exact of_decide_eq_true apart (same ▸ (sound m here).2.1)
  rw [map_append, mem_append]
  by_cases same : groupKey m = key
  · cases picked with
    | none => rw [complete rfl m member same] at live; cases live
    | some pick => exact .inl (by simp [same, (sound pick rfl).2.1])
  exact .inr (completeOthers m (mem_filter.mpr ⟨member, decide_eq_true same⟩) groupedM live)

lemma sound (exact : ExactTargets srv matched tgts) (member : t ∈ tgts) :
    ∃ m ∈ matched, snapshotLive srv m.2 = true ∧ t = cmqFillDeliverTgt m.1 m.2 := by
  obtain ⟨_, perm, soundPicks, -⟩ := exact
  obtain ⟨m, inside, rfl⟩ := mem_map.mp (perm.mem_iff.mp member)
  rcases mem_append.mp inside with plain | picked
  · have tested := mem_filter.mp plain
    exact ⟨m, tested.1, (of_decide_eq_true tested.2).2, rfl⟩
  exact ⟨m, (soundPicks m picked).1, (soundPicks m picked).2.2, rfl⟩

lemma complete (exact : ExactTargets srv matched tgts) (member : m ∈ matched)
    (live : snapshotLive srv m.2 = true) : ∃ t ∈ tgts, t.accountName = m.2.accountName := by
  obtain ⟨_, perm, -, -, completePicks⟩ := exact
  by_cases plain : m.1.queueGroup = []
  · refine ⟨_, perm.mem_iff.mpr (mem_map_of_mem (mem_append_left _ ?_)), rfl⟩
    exact mem_filter.mpr ⟨member, decide_eq_true ⟨plain, live⟩⟩
  obtain ⟨_, inside, same⟩ := mem_map.mp (completePicks m member plain live)
  exact ⟨_, perm.mem_iff.mpr (mem_map_of_mem (mem_append_right _ inside)),
    congrArg GroupKey.account same⟩

end ExactTargets

lemma snapshotLoop_exact (env : DeliverEnv) (srv : CmqServer) (fuel : Nat)
    (entries : List (Option CmqSubRef × Bool)) (counter : Nat) (enough : entries.length ≤ fuel) :
    ExactTargets srv (unused srv entries) (snapshotLoop env srv fuel entries counter).1 := by
  fun_induction snapshotLoop env srv fuel entries counter with
  | case1 entries counter =>
    rw [length_eq_zero_iff.mp (Nat.le_zero.mp enough)]
    exact ⟨[], by simp [unused], nofun, .nil, nofun⟩
  | case2 => exact ⟨[], by simp [unused], nofun, .nil, nofun⟩
  | case3 fuel entry entries counter used ih =>
    rw [unused_cons_used used]
    exact ih (Nat.le_of_succ_le_succ enough)
  | case4 fuel entry entries counter notUsed missing ih =>
    rw [unused_cons notUsed, missing]
    exact ih (Nat.le_of_succ_le_succ enough)
  | case5 fuel entry entries counter notUsed first found plain later live ih =>
    rw [unused_cons notUsed, found]
    have all := (ih (Nat.le_of_succ_le_succ enough)).cons_plain plain
    rwa [if_pos live] at all
  | case6 fuel entry entries counter notUsed first found plain later dead ih =>
    rw [unused_cons notUsed, found]
    have all := (ih (Nat.le_of_succ_le_succ enough)).cons_plain plain
    rwa [if_neg dead] at all
  | case7 fuel entry entries counter notUsed first found grouped members marked nobody ih =>
    have others := ih (by rw [length_map]; exact Nat.le_of_succ_le_succ enough)
    rw [unused_marked_cons env grouped notUsed found] at others
    refine others.of_others grouped none nofun fun _ m member same => ?_
    by_contra live
    rw [Bool.not_eq_false] at live
    have inside : m ∈ members := (mem_groupMembers env grouped).mpr ⟨member, same, live⟩
    rw [getElem?_eq_getElem (Nat.mod_lt counter (length_pos_of_mem inside))] at nobody
    cases nobody
  | case8 fuel entry entries counter notUsed first found grouped members marked picked pick later
      ih =>
    have others := ih (by rw [length_map]; exact Nat.le_of_succ_le_succ enough)
    rw [unused_marked_cons env grouped notUsed found] at others
    refine others.of_others grouped (some picked) ?_ nofun
    rintro _ ⟨⟩
    exact (mem_groupMembers env grouped).mp (mem_of_getElem? pick)

lemma unused_fresh (entries : List (Option CmqSubRef)) :
    unused srv (entries.map fun entry => (entry, false)) = entries.filterMap (refClient srv) := by
  simp [unused, filter_map, Function.comp_def]

variable {refs : List (Option CmqSubRef)} {tgts : List CmqDeliverTgt} {counter : Nat}

section

variable (taken : snapshotDeliverTargets env srv refs = some (tgts, counter))
include taken

lemma exactTargets_of_taken : ExactTargets srv (refs.filterMap (refClient srv)) tgts := by
  have exact := snapshotLoop_exact env srv refs.length
    (refs.map fun entry => (entry, false)) srv.qgRrCounter (by rw [length_map])
  rw [unused_fresh] at exact
  unfold snapshotDeliverTargets at taken
  split at taken
  next empty =>
    cases taken
    simpa [empty, snapshotLoop] using exact
  split at taken
  · cases taken
  rwa [Option.some.inj taken] at exact

/-- A target comes from a matched, unused reference to a live client. -/
def TargetOf (srv : CmqServer) (entries : List (Option CmqSubRef × Bool))
    (t : CmqDeliverTgt) : Prop :=
  ∃ entry m, (entry, false) ∈ entries ∧ refClient srv entry = some m ∧
    snapshotLive srv m.2 = true ∧ t = cmqFillDeliverTgt m.1 m.2

lemma targetOf_of_taken (member : t ∈ tgts) :
    TargetOf srv (refs.map fun entry => (entry, false)) t := by
  obtain ⟨m, inside, live, same⟩ := (exactTargets_of_taken taken).sound member
  obtain ⟨entry, located, found⟩ := mem_filterMap.mp inside
  exact ⟨entry, m, mem_map_of_mem located, found, live, same⟩

end

/-- Whichever of the hash arrays could be allocated, a snapshot that is taken is exact. -/
theorem snapshotDeliverTargets_exact (env : DeliverEnv) (srv : CmqServer)
    (entries : List (Option CmqSubRef)) :
    match snapshotDeliverTargets env srv entries with
    | none => env.targets = false
    | some (tgts, _) => ExactTargets srv (entries.filterMap (refClient srv)) tgts := by
  split
  next failed =>
    unfold snapshotDeliverTargets at failed
    split at failed
    · cases failed
    split at failed
    next denied => exact denied
    cases failed
  next taken => exact exactTargets_of_taken taken

variable {entry : Option CmqSubRef}

/-! ## The byte budget leaves accounts as live as they were -/

/-- What liveness and delivery rules read of an account. -/
def accountKey (a : CmqAccount) : Bytes × Bool × Nat := (a.name, a.active, a.epoch)

/-- Two registries that differ in counters only. -/
structure SameRules (mgr mgr' : CmqAccountManager) : Prop where
  accounts : mgr'.accounts.map accountKey = mgr.accounts.map accountKey
  perms : mgr'.perms = mgr.perms

namespace SameRules

lemma refl (mgr : CmqAccountManager) : SameRules mgr mgr := ⟨rfl, rfl⟩

lemma update (mgr : CmqAccountManager) (name : Bytes)
    (keeps : ∀ a, accountKey (change a) = accountKey a) :
    SameRules mgr (mgr.update name change) := by
  refine ⟨?_, rfl⟩
  apply ext_getElem?
  intro i
  simp only [CmqAccountManager.update, getElem?_map, getElem?_modify]
  cases mgr.accounts[i]? with
  | none => rfl
  | some a =>
    simp only [Option.map_eq_map, Option.map_some, Option.some.injEq]
    split
    · exact keeps a
    rfl

lemma find?_key (accounts : List CmqAccount) (name : Bytes) :
    (accounts.find? (CmqAccount.isNamed name)).map accountKey =
      (accounts.map accountKey).find? fun key => key.2.1 && key.1 == name := by
  rw [find?_map]
  rfl

lemma get_key (same : SameRules mgr mgr') (name : Bytes) :
    (cmqAccountGet mgr' name).map accountKey = (cmqAccountGet mgr name).map accountKey := by
  unfold cmqAccountGet
  split
  · rfl
  rw [find?_key, find?_key, same.accounts]

lemma clientAccountLive_eq (srv : CmqServer) (same : SameRules srv.accounts mgr')
    (c : CmqClient) :
    clientAccountLive { srv with accounts := mgr' } c = clientAccountLive srv c := by
  have key := same.get_key c.accountName
  unfold clientAccountLive
  cases new : cmqAccountGet mgr' c.accountName <;>
    cases old : cmqAccountGet srv.accounts c.accountName <;>
    simp_all [accountKey]

lemma snapshotLive_eq (srv : CmqServer) (same : SameRules srv.accounts mgr')
    (c : CmqClient) : snapshotLive { srv with accounts := mgr' } c = snapshotLive srv c := by
  rw [snapshotLive, snapshotLive, clientAccountLive_eq srv same]

lemma credit (mgr : CmqAccountManager) (name : Bytes) (epoch n : Nat) :
    SameRules mgr (cmqAccountCreditBytesLive mgr name epoch n).1 := by
  unfold cmqAccountCreditBytesLive
  split
  · exact refl mgr
  repeat' split
  all_goals first | exact refl mgr | exact update mgr name fun _ => rfl

lemma holdName
    (holds : accountLiveHoldName mgr name n = some (mgr', held)) : SameRules mgr mgr' := by
  unfold accountLiveHoldName at holds
  split at holds
  · cases holds
    exact refl mgr
  split at holds
  · cases holds
    exact refl mgr
  split at holds
  · cases holds
    exact refl mgr
  simp only at holds
  split at holds
  · cases holds
    exact credit _ _ _ _
  cases holds

end SameRules

/-! ## A publish of the server -/

variable {account : Bytes}

lemma deliverLoop_epoch_zero (env : DeliverEnv) (subject frame : Bytes) (named : account ≠ [])
    (i : Nat) (srv : CmqServer) (tgts : List CmqDeliverTgt) :
    deliverLoop env subject frame account 0 i srv tgts = (srv, []) := by
  induction tgts generalizing i with
  | nil => rfl
  | cons t tgts ih =>
    have dead : pubAccountEpochLive srv account 0 = false := by simp [pubAccountEpochLive, named]
    simp only [deliverLoop, dead, Bool.not_false, Bool.or_true]
    exact ih (i + 1)

lemma publishMapped_delivers_nothing (env : DeliverEnv) (srv : CmqServer)
    (subject payload : Bytes) (named : account ≠ []) :
    (publishMapped env srv subject payload account).2.1 = [] := by
  unfold publishMapped
  split
  · rfl
  split
  · rfl
  split
  · rfl
  unfold deliverTargetsSync
  repeat' split
  all_goals first | rfl | exact congrArg Prod.snd (deliverLoop_epoch_zero env _ _ named _ _ _)

lemma cmqServerPublish_delivers_nothing (env : DeliverEnv) (srv : CmqServer)
    (subject payload : Bytes) (named : account ≠ []) :
    (cmqServerPublish env srv subject payload account).2.1 = [] := by
  unfold cmqServerPublish
  repeat' split
  all_goals first | rfl | exact publishMapped_delivers_nothing env _ _ _ named

/-- The mapped subject of a publish and the snapshot taken for it, if it gets that far. -/
def publishSnapshot (env : DeliverEnv) (srv : CmqServer) (subject payload account : Bytes) :
    Option (Bytes × List CmqDeliverTgt) :=
  if subject.length = 0 ∨ subject.length ≥ cmqMaxSubject then none
  else do
    let mapped ← accountApplyRewrite srv account subject
    let (accounts, _) ← accountLiveHoldName srv.accounts account payload.length
    let result ← cmqSublistMatch env.realloc srv.sublist mapped
    let (tgts, _) ← snapshotDeliverTargets env { srv with accounts } result.entries
    return (mapped, tgts)

/-- The client of a target is live and its account may receive the subject. -/
def receives (srv : CmqServer) (account subject : Bytes) (t : CmqDeliverTgt) : Bool :=
  (srv.findClient t.clientId).any (fun c => c.connGen == t.connGen && snapshotLive srv c) &&
    cmqAccountMayDeliver srv.accounts account t.accountName subject

/-- A publish delivers once to each target of its snapshot that is to receive it and to
nobody else. -/
def DeliversExactly (env : DeliverEnv) (srv : CmqServer) (subject payload account : Bytes) :
    Prop :=
  ((cmqServerPublish env srv subject payload account).2.1.map Delivery.target).Perm
    ((publishSnapshot env srv subject payload account).elim [] fun snapshot =>
      snapshot.2.filter (receives srv account snapshot.1))

/-- No live client with a subscription to the mapped subject belongs to an account that may
receive it, unless the publish ends before its snapshot. -/
def NoReceiver (env : DeliverEnv) (srv : CmqServer) (subject payload account : Bytes) :
    Prop :=
  ∀ mapped result, 0 < subject.length → subject.length < cmqMaxSubject →
    accountApplyRewrite srv account subject = some mapped →
    (accountLiveHoldName srv.accounts account payload.length).isSome = true →
    cmqSublistMatch env.realloc srv.sublist mapped = some result → env.targets = true →
    ∀ entry ∈ result.entries, ∀ m, refClient srv entry = some m →
      snapshotLive srv m.2 = true →
      cmqAccountMayDeliver srv.accounts account m.2.accountName mapped = false

lemma receives_fill (found : refClient srv entry = some m) (live : snapshotLive srv m.2 = true) :
    receives srv account subject (cmqFillDeliverTgt m.1 m.2) =
      cmqAccountMayDeliver srv.accounts account m.2.accountName subject := by
  simp only [refClient, Option.bind_eq_some_iff, Option.map_eq_some_iff] at found
  obtain ⟨ref, rfl, client, located, rfl⟩ := found
  have sameId : client.id = ref.client := by simpa using find?_some located
  have again : srv.findClient client.id = some client := sameId ▸ located
  simp [receives, cmqFillDeliverTgt, again, live]

lemma snapshot_receives {mgr : CmqAccountManager}
    {subject : Bytes} {entries : List (Option CmqSubRef)} (same : SameRules srv.accounts mgr)
    (taken : snapshotDeliverTargets env { srv with accounts := mgr } entries =
      some (tgts, counter)) :
    (∃ t ∈ tgts, receives srv account subject t = true) ↔
      env.targets = true ∧ ∃ entry ∈ entries, ∃ m, refClient srv entry = some m ∧
        snapshotLive srv m.2 = true ∧
        cmqAccountMayDeliver srv.accounts account m.2.accountName subject = true := by
  have exact := exactTargets_of_taken taken
  constructor
  · rintro ⟨t, member, gets⟩
    obtain ⟨m, inside, live, rfl⟩ := exact.sound member
    obtain ⟨entry, located, found⟩ : ∃ entry ∈ entries, refClient srv entry = some m :=
      mem_filterMap.mp inside
    rw [same.snapshotLive_eq srv] at live
    rw [receives_fill found live] at gets
    refine ⟨?_, entry, located, m, found, live, gets⟩
    by_contra denied
    rw [snapshotDeliverTargets, if_neg (ne_nil_of_mem located),
      if_pos (Bool.not_eq_true _ ▸ denied)] at taken
    cases taken
  rintro ⟨-, entry, located, m, found, live, may⟩
  obtain ⟨t, member, account⟩ := exact.complete (mem_filterMap.mpr ⟨entry, located, found⟩)
    (by rw [same.snapshotLive_eq srv, live])
  obtain ⟨m', inside, live', rfl⟩ := exact.sound member
  obtain ⟨_, -, found'⟩ : ∃ entry ∈ entries, refClient srv entry = some m' :=
    mem_filterMap.mp inside
  rw [same.snapshotLive_eq srv] at live'
  refine ⟨_, member, ?_⟩
  rw [receives_fill found' live', ← may]
  exact congrArg (cmqAccountMayDeliver srv.accounts _ · subject) account

/-- A publish for an account is delivered as it should be if and only if nobody was to
receive it. -/
theorem cmqServerPublish_delivers_iff (env : DeliverEnv) (srv : CmqServer)
    (subject payload account : Bytes) (named : account ≠ []) :
    DeliversExactly env srv subject payload account ↔
      NoReceiver env srv subject payload account := by
  rw [DeliversExactly, cmqServerPublish_delivers_nothing env srv subject payload named,
    map_nil, nil_perm]
  constructor
  · intro nobody _ result _ _ rewrites holds matched granted entry located m
      found live
    obtain ⟨⟨mgr, held⟩, holds⟩ := Option.isSome_iff_exists.mp holds
    have same := SameRules.holdName holds
    have taken : ∃ tgts counter,
        snapshotDeliverTargets env { srv with accounts := mgr } result.entries =
          some (tgts, counter) := by
      unfold snapshotDeliverTargets
      simp only [granted]
      split
      · exact ⟨_, _, rfl⟩
      exact ⟨_, _, rfl⟩
    obtain ⟨tgts, counter, taken⟩ := taken
    have inBounds : ¬ (subject.length = 0 ∨ subject.length ≥ cmqMaxSubject) := by omega
    simp only [publishSnapshot, inBounds, if_false, rewrites, holds, matched, taken,
      Option.bind_eq_bind, Option.bind_some, Option.pure_def, Option.elim_some,
      filter_eq_nil_iff] at nobody
    by_contra may
    rw [Bool.not_eq_false] at may
    obtain ⟨t, member, gets⟩ :=
      (snapshot_receives same taken).mpr ⟨granted, entry, located, m, found, live, may⟩
    exact nobody t member gets
  intro nobody
  cases snapshot : publishSnapshot env srv subject payload account with
  | none => rfl
  | some =>
    unfold publishSnapshot at snapshot
    split at snapshot
    · cases snapshot
    simp only [Option.bind_eq_bind, Option.bind_eq_some_iff, Option.pure_def,
      Option.some.injEq, Prod.exists] at snapshot
    obtain ⟨_, rewrites, mgr, held, holds, result, matched, _, counter, taken, rfl⟩ := snapshot
    rw [Option.elim_some, filter_eq_nil_iff]
    intro t member gets
    obtain ⟨granted, entry, located, m, found, live, may⟩ :=
      (snapshot_receives (SameRules.holdName holds) taken).mp ⟨t, member, gets⟩
    have may' := nobody _ result (by omega) (by omega) rewrites
      (by rw [holds]; rfl) matched granted entry located m found live
    rw [may] at may'
    cases may'

def DeliverEnv.granted : DeliverEnv where
  realloc := fun _ => true
  targets := true
  qgHash := true
  subjectHash := true
  frame := true
  push := fun _ _ => true
  send := fun _ => .sent

/-- A server with an account in epoch 1 and one of its clients connected, which is subscribed
to `a`. -/
def oneSubscriber (account : Bytes) : CmqServer where
  accounts := ⟨[⟨account, true, 1, 0, 0⟩], [], 0⟩
  sublist := (cmqSublistInsert .granted cmqSublistCreate (cstr "a")
    (some ⟨7, 1, cstr "a", []⟩)).1
  clients := [⟨7, 1, 5, .connected, [⟨1, cstr "a", []⟩], account, 1, 0, 0, false, -1⟩]
  numWorkers := 0
  currentWorker := -1
  qgRrCounter := 0
  maxPayloadSize := 1024
  aclH := none
  aclHeap := ⟨[], [], false⟩

/-- Nobody is subscribed to `b`. -/
theorem cmqServerPublish_delivers_unmatched :
    DeliversExactly .granted (oneSubscriber (cstr "acc")) (cstr "b") [1] (cstr "acc") ∧
      NoReceiver .granted (oneSubscriber (cstr "acc")) (cstr "b") [1] (cstr "acc") := by
  have delivered :
      DeliversExactly .granted (oneSubscriber (cstr "acc")) (cstr "b") [1] (cstr "acc") := by
    unfold DeliversExactly
    decide
  exact ⟨delivered, (cmqServerPublish_delivers_iff _ _ _ _ (cstr "acc") (by decide)).mp delivered⟩

/-- The account is live, the subscriber is live and of the same account, and still nothing
is delivered to it. -/
theorem cmqServerPublish_loses_message :
    publishSnapshot .granted (oneSubscriber (cstr "acc")) (cstr "a") [1] (cstr "acc") =
        some (cstr "a", [⟨7, 1, -1, 1, 1, cstr "a", [], cstr "acc"⟩]) ∧
      receives (oneSubscriber (cstr "acc")) (cstr "acc") (cstr "a")
        ⟨7, 1, -1, 1, 1, cstr "a", [], cstr "acc"⟩ = true ∧
      (cmqServerPublish .granted (oneSubscriber (cstr "acc")) (cstr "a") [1]
        (cstr "acc")).2 = ([], 0) ∧
      ¬ DeliversExactly .granted (oneSubscriber (cstr "acc")) (cstr "a") [1] (cstr "acc") := by
  unfold DeliversExactly
  decide

end CMsgQueue.Server
