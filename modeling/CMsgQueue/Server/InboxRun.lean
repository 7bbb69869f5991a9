import CMsgQueue.Server.InboxClaim

/-!
# An inbox has one holder, unless two claims race

If nothing is inserted between the test of `handle_subscribe` and its insertion, there is no
other holder at the insertion either.
-/

namespace CMsgQueue.Server

open List Enterprise Tokens

/-! ## The trie -/

/-- The trie is well-formed, and each reference is filed under its subject. -/
def Filed (sl : CmqSublist CmqSubRef) : Prop :=
  ∃ live, SublistRun.Inv ⟨sl, live⟩ ∧ ∀ sub ∈ live, ∃ ref : CmqSubRef, sub = (ref.subject, some ref)

variable {subject : Bytes} {claim : Nat → Bool}

section Trie

variable {sl : CmqSublist CmqSubRef} {live : List (Bytes × Option CmqSubRef)}

lemma refs_perm (inv : SublistRun.Inv ⟨sl, live⟩) : sl.refs.Perm (live.map Prod.snd) := by
  have perm := inv.entries_perm.map Prod.snd
  rwa [map_map] at perm

lemma filed_create : Filed cmqSublistCreate := ⟨[], SublistRun.calls_inv [], nofun⟩

lemma Filed.insert (filed : Filed sl) (alloc : InsertAlloc) (subject : Bytes) (ref : CmqSubRef)
    (same : ref.subject = subject) :
    ((cmqSublistInsert alloc sl subject (some ref)).2 = 0 ∧
      Filed (cmqSublistInsert alloc sl subject (some ref)).1 ∧
      ∀ entry, entry ∈ (cmqSublistInsert alloc sl subject (some ref)).1.refs ↔
        entry = some ref ∨ entry ∈ sl.refs) ∨
    ((cmqSublistInsert alloc sl subject (some ref)).2 ≠ 0 ∧
      (cmqSublistInsert alloc sl subject (some ref)).1 = sl) := by
  subst same
  obtain ⟨_, inv, subjects⟩ := filed
  by_cases success : (cmqSublistInsert alloc sl ref.subject (some ref)).2 = 0
  · have inserted := inv.insert success
    refine .inl ⟨success, ⟨_, inserted, forall_mem_cons.mpr ⟨⟨ref, rfl⟩, subjects⟩⟩,
      fun entry => ?_⟩
    · rw [(refs_perm inserted).mem_iff, (refs_perm inv).mem_iff, map_cons, mem_cons]
  exact .inr ⟨success, inv.insert_failed success⟩

lemma Filed.remove (filed : Filed sl) (subject : Bytes) (data : Option CmqSubRef) :
    Filed (cmqSublistRemove sl subject data).1 ∧
      ∀ entry ∈ (cmqSublistRemove sl subject data).1.refs, entry ∈ sl.refs := by
  obtain ⟨live, inv, subjects⟩ := filed
  have removed := SublistRun.call_inv inv (.remove subject data)
  have subset : ∀ sub ∈ (SublistRun.call ⟨sl, live⟩ (.remove subject data)).live, sub ∈ live := by
    intro sub member
    simp only [SublistRun.call] at member
    split at member
    · exact mem_of_mem_erase member
    exact member
  refine ⟨⟨_, removed, fun sub member => subjects sub (subset sub member)⟩, fun entry member => ?_⟩
  rw [(refs_perm removed).mem_iff, mem_map] at member
  obtain ⟨sub, member, rfl⟩ := member
  exact (refs_perm inv).mem_iff.mpr (mem_map_of_mem (subset sub member))

lemma Filed.mem_match (filed : Filed sl) (valid : cmqSublistSubjectValid subject = true)
    (plain : chGt ∉ subject) (found : cmqSublistMatch claim sl subject = some result)
    (member : some ref ∈ sl.refs) (same : ref.subject = subject) : some ref ∈ result.entries := by
  obtain ⟨_, inv, subjects⟩ := filed
  obtain ⟨_, appended, perm⟩ := SublistRun.match_appended inv claim valid
  simp only [found] at appended
  rw [appended.1, nil_append, perm.mem_iff]
  rw [(refs_perm inv).mem_iff, mem_map] at member
  obtain ⟨sub, member, eq⟩ := member
  obtain ⟨_, rfl⟩ := subjects sub member
  cases eq
  refine mem_map.mpr ⟨_, mem_filter.mpr ⟨member, ?_⟩, rfl⟩
  simp only [same]
  exact tokensMatch_self fun inside =>
    plain (mem_of_mem_tokens inside (mem_singleton_self _))

lemma mem_refs_of_match (found : cmqSublistMatch claim sl subject = some result)
    (member : entry ∈ result.entries) : entry ∈ sl.refs := by
  unfold cmqSublistMatch at found
  split at found
  · cases found
  next tokens _ =>
  have appended := matchRecursive_appended claim sl.root tokens ⟨[], 0⟩
  rw [found] at appended
  rw [appended.1, nil_append, mem_map] at member
  obtain ⟨_, inside, rfl⟩ := member
  exact mem_map_of_mem (mem_filter.mp inside).1

end Trie

/-! ## Clients -/

section Clients

variable {srv : CmqServer} {c : CmqClient} {id : Nat}

lemma id_of_findClient (found : srv.findClient id = some c) : c.id = id := by
  simpa using find?_some found

lemma findClient_map (ids : ∀ c, (change c).id = c.id) :
    { srv with clients := srv.clients.map change }.findClient id =
      (srv.findClient id).map change := by
  simp only [CmqServer.findClient, find?_map, Function.comp_def, ids]

lemma clientAccountLive_congr (accounts : srv'.accounts = srv.accounts)
    (name : c'.accountName = c.accountName) (epoch : c'.accountEpoch = c.accountEpoch) :
    clientAccountLive srv' c' = clientAccountLive srv c := by
  unfold clientAccountLive
  rw [accounts, name, epoch]

lemma isSome_findClient_map (ids : ∀ c, (change c).id = c.id) :
    ({ srv with clients := srv.clients.map change }.findClient id).isSome =
      (srv.findClient id).isSome := by
  rw [findClient_map ids, Option.isSome_map]

lemma putClient_id (c other : CmqClient) : (if other.id = c.id then c else other).id = other.id := by
  split
  next same => exact same.symm
  rfl

lemma setClosing_id (id : Nat) (other : CmqClient) :
    (if other.id = id then { other with state := .closing } else other).id = other.id := by
  split <;> rfl

lemma liveId_putClient (srv : CmqServer) (found : srv.findClient c.id = some c) (c' : CmqClient)
    (same : c'.id = c.id) (name : c'.accountName = c.accountName)
    (epoch : c'.accountEpoch = c.accountEpoch) (id : Nat) :
    liveId (srv.putClient c') id = liveId srv id := by
  unfold liveId CmqServer.putClient
  rw [findClient_map (putClient_id c')]
  cases located : srv.findClient id with
  | none => rfl
  | some other =>
    rw [Option.map_some, Option.any_some]
    by_cases here : other.id = c'.id
    · have eq : other = c := by
        rw [← id_of_findClient located, here, same, found] at located
        exact (Option.some.inj located).symm
      rw [if_pos here, eq]
      exact clientAccountLive_congr rfl name epoch
    rw [if_neg here]
    exact clientAccountLive_congr rfl rfl rfl

lemma liveId_setClosing (id other : Nat) : liveId (srv.setClosing id) other = liveId srv other := by
  unfold liveId CmqServer.setClosing
  rw [findClient_map (setClosing_id id)]
  cases srv.findClient other with
  | none => rfl
  | some c =>
    rw [Option.map_some, Option.any_some]
    split
    · exact clientAccountLive_congr rfl rfl rfl
    exact clientAccountLive_congr rfl rfl rfl

end Clients

/-! ## Holders -/

/-- Nobody holds anything that they did not hold before. -/
def Fewer (srv srv' : CmqServer) : Prop := ∀ subject id, Holds srv' subject id → Holds srv subject id

section Holders

variable {srv : CmqServer}

lemma fewer_of (refs : ∀ entry ∈ srv'.sublist.refs, entry ∈ srv.sublist.refs)
    (live : ∀ id, liveId srv' id = true → liveId srv id = true) : Fewer srv srv' := by
  rintro _ id ⟨ref, member, same, client, alive⟩
  exact ⟨ref, refs _ member, same, client, live id alive⟩

lemma InboxFree.mono {id : Nat} (fewer : Fewer srv srv') (free : InboxFree srv id subject) :
    InboxFree srv' id subject :=
  fun other holds => free other (fewer subject other holds)

lemma Exclusive.mono (fewer : Fewer srv srv') (exclusive : Exclusive srv) : Exclusive srv' :=
  fun subject inbox first second holdsFirst holdsSecond =>
    exclusive subject inbox first second (fewer _ _ holdsFirst) (fewer _ _ holdsSecond)

lemma inboxFree_of_test (filed : Filed srv.sublist)
    (valid : cmqSublistSubjectValid subject = true) (plain : chGt ∉ subject)
    (found : cmqSublistMatch claim srv.sublist subject = some result)
    (passed : result.entries.any (heldByOther srv c subject) = false) :
    InboxFree srv c.id subject := by
  rintro _ ⟨_, member, same, rfl, alive⟩
  have inside := filed.mem_match valid plain found member same
  have free := any_eq_false.mp passed _ inside
  simp only [liveId, Option.any_eq_true] at alive
  obtain ⟨_, located, live⟩ := alive
  by_contra different
  refine free ?_
  have holderId := id_of_findClient located
  simp [heldByOther, refClient, located, same, live, holderId, different]

end Holders

/-! ## Steps -/

namespace InboxState

variable {s : InboxState}

structure Inv (s : InboxState) : Prop where
  filed : Filed s.srv.sublist
  ids : ∀ ref, some ref ∈ s.srv.sublist.refs → ref.client < s.nextId
  clients : ∀ id, (s.srv.findClient id).isSome = true → id < s.nextId
  exclusive : Exclusive s.srv
  /-- Nobody else holds an inbox that a handler has tested and not yet inserted. -/
  claims : ∀ id pc subject, s.calls id = some pc → pc.claims = some subject →
    isInbox subject = true → InboxFree s.srv id subject

/-- A handler relies on its test, or the subject is free anyway. -/
def Backed (s : InboxState) (id : Nat) (subject : Bytes) : Prop :=
  (∃ pc, s.calls id = some pc ∧ pc.claims = some subject) ∨ InboxFree s.srv id subject

variable {id : Nat}

lemma Inv.free (inv : Inv s) (backed : Backed s id subject) (inbox : isInbox subject = true) :
    InboxFree s.srv id subject := by
  rcases backed with ⟨pc, called, claimed⟩ | free
  · exact inv.claims id pc subject called claimed inbox
  exact free

lemma Inv.shrink (inv : Inv s) (filed : Filed s'.srv.sublist)
    (refs : ∀ entry ∈ s'.srv.sublist.refs, entry ∈ s.srv.sublist.refs)
    (clients : ∀ id, (s'.srv.findClient id).isSome = true → id < s'.nextId)
    (next : s.nextId ≤ s'.nextId) (fewer : Fewer s.srv s'.srv)
    (calls : ∀ id pc subject, s'.calls id = some pc → pc.claims = some subject →
      isInbox subject = true → Backed s id subject) : Inv s' where
  filed := filed
  ids := fun ref member => lt_of_lt_of_le (inv.ids ref (refs _ member)) next
  clients := clients
  exclusive := inv.exclusive.mono fewer
  claims := fun id pc subject called claimed inbox =>
    (inv.free (calls id pc subject called claimed inbox) inbox).mono fewer

variable {srv : CmqServer} {next : Option SubscribePc}

lemma backed_setCall
    (own : ∀ pc subject, next = some pc → pc.claims = some subject → isInbox subject = true →
      Backed s id subject) :
    ∀ other pc subject, ({ s with srv }.setCall id next).calls other = some pc →
      pc.claims = some subject → isInbox subject = true → Backed s other subject := by
  intro other pc subject called claimed inbox
  simp only [setCall] at called
  split at called
  next same => exact same ▸ own pc subject called claimed inbox
  exact .inl ⟨pc, called, claimed⟩

lemma backed_self {nextId : Nat} :
    ∀ other pc subject, ({ s with srv, nextId } : InboxState).calls other = some pc →
      pc.claims = some subject → isInbox subject = true → Backed s other subject :=
  fun _ pc _ called claimed _ => .inl ⟨pc, called, claimed⟩

/-- A step that inserts a reference, which nobody else holds and nobody else is going to
insert. -/
lemma Inv.insert (inv : Inv s) (client : ref.client = id) (bound : id < s.nextId)
    (filed : Filed srv.sublist)
    (refs : ∀ entry, entry ∈ srv.sublist.refs ↔ entry = some ref ∨ entry ∈ s.srv.sublist.refs)
    (clients : ∀ other, (srv.findClient other).isSome = (s.srv.findClient other).isSome)
    (live : ∀ other, liveId srv other = liveId s.srv other)
    (done : ∀ pc, next = some pc → pc.claims = none)
    (free : isInbox ref.subject = true → InboxFree s.srv id ref.subject)
    (unclaimed : isInbox ref.subject = true → Unclaimed s id ref.subject) :
    Inv ({ s with srv }.setCall id next) := by
  have holds : ∀ subject other, Holds srv subject other →
      (subject = ref.subject ∧ other = id) ∨ Holds s.srv subject other := by
    rintro subject other ⟨ref', member, same, owner, alive⟩
    rw [live] at alive
    rcases (refs _).mp member with new | old
    · cases new
      exact .inl ⟨same.symm, owner.symm.trans client⟩
    exact .inr ⟨ref', old, same, owner, alive⟩
  refine ⟨filed, fun ref' member => ?_,
    fun other found => inv.clients other ((clients other).symm.trans found),
    fun subject inbox first second
      holdsFirst holdsSecond => ?_, fun other pc subject called claimed inbox => ?_⟩
  · rcases (refs _).mp member with new | old
    · cases new
      rw [client]
      exact bound
    exact inv.ids ref' old
  · rcases holds subject first holdsFirst with ⟨rfl, rfl⟩ | oldFirst
    · rcases holds _ second holdsSecond with ⟨-, rfl⟩ | oldSecond
      · rfl
      exact (free inbox second oldSecond).symm
    rcases holds subject second holdsSecond with ⟨rfl, rfl⟩ | oldSecond
    · exact free inbox first oldFirst
    exact inv.exclusive subject inbox first second oldFirst oldSecond
  simp only [setCall] at called
  split at called
  next same =>
    rw [done pc called] at claimed
    cases claimed
  next different =>
  intro holder held
  rcases holds subject holder held with ⟨rfl, rfl⟩ | old
  · exact absurd claimed (unclaimed inbox other pc different called)
  exact inv.claims other pc subject called claimed inbox holder old

lemma findClient_of_idle (idle : s.idle id = some c) : s.srv.findClient id = some c := by
  unfold InboxState.idle at idle
  split at idle
  · cases idle
  exact idle

lemma unfile_foldl (id : Nat) (entries : List CmqSubEntry) (srv : CmqServer)
    (filed : Filed srv.sublist) :
    Filed (entries.foldl (fun srv entry => srv.unfile entry id) srv).sublist ∧
      (∀ ref ∈ (entries.foldl (fun srv entry => srv.unfile entry id) srv).sublist.refs,
        ref ∈ srv.sublist.refs) ∧
      (entries.foldl (fun srv entry => srv.unfile entry id) srv).clients = srv.clients ∧
      (entries.foldl (fun srv entry => srv.unfile entry id) srv).accounts = srv.accounts := by
  induction entries generalizing srv with
  | nil => exact ⟨filed, fun _ member => member, rfl, rfl⟩
  | cons entry entries ih =>
    obtain ⟨filedOne, fewer⟩ := filed.remove entry.subject (some (entry.refOf id))
    obtain ⟨filedAll, refs, clients, accounts⟩ := ih (srv.unfile entry id) filedOne
    exact ⟨filedAll, fun ref member => fewer ref (refs ref member), clients, accounts⟩

section

variable (inv : Inv s)
include inv

lemma Inv.connect (c : CmqClient) : Inv (s.step (.connect c)) := by
  have found : ∀ id, id ≠ s.nextId →
      (s.step (.connect c)).srv.findClient id = s.srv.findClient id := by
    intro id other
    simp [step, CmqServer.findClient, find?_append, Ne.symm other]
  refine inv.shrink inv.filed (fun _ => id) (fun id some => ?_) (Nat.le_succ _) ?_
    backed_self
  · by_cases new : id = s.nextId
    · exact Nat.lt_succ_of_le (le_of_eq new)
    rw [found id new] at some
    exact Nat.lt_succ_of_lt (inv.clients id some)
  rintro _ id ⟨ref, member, same, client, alive⟩
  have old : id ≠ s.nextId := Nat.ne_of_lt (client ▸ inv.ids ref member)
  refine ⟨ref, member, same, client, ?_⟩
  unfold liveId at alive ⊢
  rw [found id old] at alive
  exact alive

lemma Inv.disconnect (id : Nat) : Inv (s.step (.disconnect id)) := by
  unfold step
  simp only
  split
  · exact inv
  next c _ =>
  obtain ⟨filed, refs, clients, accounts⟩ := unfile_foldl id c.subs s.srv inv.filed
  generalize c.subs.foldl (fun srv entry => srv.unfile entry id) s.srv = srv at *
  have found : ∀ other client,
      { srv with clients := srv.clients.filter fun other => other.id ≠ id }.findClient other =
        some client → s.srv.findClient other = some client := by
    intro other client located
    simp only [CmqServer.findClient, clients, find?_filter] at located ⊢
    by_cases here : other = id
    · have gone := find?_some located
      simp [here] at gone
    rw [← located]
    congr 1
    funext candidate
    by_cases same : candidate.id = other
    · simp [same, here]
    simp [same]
  refine inv.shrink filed refs (fun other some => ?_) (le_refl _) (fewer_of refs ?_)
    backed_self
  · obtain ⟨client, located⟩ := Option.isSome_iff_exists.mp some
    exact inv.clients other (Option.isSome_iff_exists.mpr ⟨client, found other client located⟩)
  intro other alive
  simp only [liveId, Option.any_eq_true] at alive ⊢
  obtain ⟨client, located, live⟩ := alive
  refine ⟨client, found other client located, ?_⟩
  rw [← clientAccountLive_congr accounts rfl rfl]
  exact live

lemma Inv.accounts {mgr : CmqAccountManager} (unraced : s.Unraced (.accounts mgr)) :
    Inv (s.step (.accounts mgr)) := by
  refine inv.shrink inv.filed (fun _ => id) inv.clients (le_refl _)
    (fewer_of (fun _ => id) fun id alive => ?_) backed_self
  simp only [liveId, Option.any_eq_true] at alive ⊢
  obtain ⟨client, located, live⟩ := alive
  exact ⟨client, located, unraced client (mem_of_find?_eq_some located) live⟩

lemma Inv.unsubscribe (id subId : Nat) : Inv (s.step (.unsubscribe id subId)) := by
  unfold step
  simp only
  split
  · exact inv
  next c idle =>
  split
  · exact inv
  next entry _ =>
  have located := findClient_of_idle idle
  rw [← id_of_findClient located] at located
  obtain ⟨filed, refs⟩ := inv.filed.remove entry.subject (some (entry.refOf id))
  refine inv.shrink filed refs (fun other some => ?_) (le_refl _)
    (fewer_of refs fun other alive => ?_) backed_self
  · exact inv.clients other (by
      rwa [CmqServer.putClient, isSome_findClient_map (putClient_id _)] at some)
  exact (liveId_putClient (s.srv.unfile entry id) located
    { c with subs := c.subs.erase entry } rfl rfl rfl other).symm.trans alive

lemma Inv.subscribe (id : Nat) (req : SubRequest) (env : ClaimEnv) :
    Inv (s.step (.subscribe id req env)) := by
  unfold step
  simp only
  split
  · exact inv
  next c idle =>
  split
  · exact inv
  refine inv.shrink inv.filed (fun _ member => member) inv.clients (le_refl _)
    (fun _ _ holds => holds) (backed_setCall fun _ subject began claimed inbox => .inr ?_)
  have located := id_of_findClient (findClient_of_idle idle)
  rw [← located]
  unfold subscribeBegin at began
  simp only at began
  split at began
  · cases began
  next valid =>
  rw [Bool.not_eq_false, requestValid] at valid
  simp only [Bool.and_eq_true, Bool.not_eq_true'] at valid
  split at began
  · cases began
  split at began
  · cases began
  split at began
  next other =>
    cases began
    cases claimed
    rw [inbox] at other
    cases other
  split at began
  · cases began
  next _ matched =>
  split at began
  · cases began
  next passed =>
  cases began
  cases claimed
  have plain : chGt ∉ req.subject := by
    have wildcard := valid.1.2
    simp only [isInboxWildcard, inbox, Bool.true_or, Bool.true_and,
      Bool.or_eq_false_iff] at wildcard
    simpa using wildcard.2
  exact inboxFree_of_test inv.filed valid.1.1.2 plain matched
    (by simpa using passed)

lemma Inv.proceed (called : s.calls id = some pc) (filed : Filed srv.sublist)
    (refs : ∀ entry ∈ srv.sublist.refs, entry ∈ s.srv.sublist.refs)
    (clients : ∀ other, (srv.findClient other).isSome = (s.srv.findClient other).isSome)
    (live : ∀ other, liveId srv other = liveId s.srv other)
    (claims : ∀ pc', next = some pc' → pc'.claims = none ∨ pc'.claims = pc.claims) :
    Inv ({ s with srv }.setCall id next) := by
  refine inv.shrink filed refs (fun other found => inv.clients other
    ((clients other).symm.trans found)) (le_refl _)
    (fewer_of refs fun other alive => (live other).symm.trans alive)
    (backed_setCall fun pc' _ same claimed _ => .inl ⟨pc, called, ?_⟩)
  rcases claims pc' same with none | kept
  · rw [none] at claimed
    cases claimed
  rw [← kept, claimed]

/-- The state after a step of the handler of a client. -/
abbrev resumed (s : InboxState) (c : CmqClient) (pc : SubscribePc) : InboxState :=
  let after := subscribeStep s.srv c pc
  { s with srv := after.1 }.setCall c.id after.2

section Handler

variable {c : CmqClient} {call : SubscribeCall}

lemma Inv.charge (called : s.calls c.id = some (.charge call)) :
    Inv (s.resumed c (.charge call)) := by
  have stays : ∀ next, (∀ pc, next = some pc → pc = .remove call) →
      Inv ({ s with srv := s.srv }.setCall c.id next) := fun next only =>
    inv.proceed called inv.filed (fun _ => id) (fun _ => rfl) (fun _ => rfl)
      fun pc same => .inr (only pc same ▸ rfl)
  have closes : Inv ({ s with srv := s.srv.setClosing c.id }.setCall c.id none) :=
    inv.proceed called inv.filed (fun _ => id)
      (fun _ => isSome_findClient_map (setClosing_id c.id)) (liveId_setClosing c.id) nofun
  simp only [resumed, subscribeStep]
  split
  · exact stays _ fun pc same => (Option.some.inj same).symm
  split
  · split
    · exact closes
    exact stays _ nofun
  split
  · exact closes
  exact stays _ fun pc same => (Option.some.inj same).symm

lemma Inv.remove (called : s.calls c.id = some (.remove call)) :
    Inv (s.resumed c (.remove call)) := by
  simp only [resumed, subscribeStep]
  cases call.old with
  | none =>
    exact inv.proceed called inv.filed (fun _ => id) (fun _ => rfl) (fun _ => rfl)
      fun pc same => .inr (Option.some.inj same ▸ rfl)
  | some old =>
    obtain ⟨filed, refs⟩ := inv.filed.remove old.subject (some (old.refOf c.id))
    exact inv.proceed called filed refs (fun _ => rfl) (fun _ => rfl)
      fun pc same => .inr (Option.some.inj same ▸ rfl)

lemma Inv.insertNew (called : s.calls c.id = some (.insert call))
    (located : s.srv.findClient c.id = some c)
    (unclaimed : isInbox call.req.subject = true → Unclaimed s c.id call.req.subject) :
    Inv (s.resumed c (.insert call)) := by
  have bound := inv.clients c.id (by rw [located]; rfl)
  simp only [resumed, subscribeStep]
  rcases inv.filed.insert call.env.insert call.req.subject (call.req.newEntry.refOf c.id) rfl with
    ⟨success, filed, refs⟩ | ⟨failed, same⟩
  · rw [if_neg (not_not.mpr success)]
    refine inv.insert rfl bound filed refs
      (fun _ => isSome_findClient_map (putClient_id _)) (fun other => ?_) ?_
      (fun inbox => inv.claims c.id _ _ called rfl inbox) unclaimed
    · exact liveId_putClient { s.srv with sublist := _ } located
        { c with subs := call.req.newEntry :: call.old.elim c.subs c.subs.erase } rfl rfl rfl other
    intro pc same
    cases same
    rfl
  rw [if_pos failed]
  have filed := inv.filed
  rw [← same] at filed
  refine inv.proceed called filed (fun _ member => ?_) (fun _ => rfl)
    (fun _ => rfl) fun pc next => ?_
  · exact same ▸ member
  obtain ⟨old, -, rfl⟩ := Option.map_eq_some_iff.mp next
  exact .inl rfl

lemma Inv.restoreOld (called : s.calls c.id = some (.restore call))
    (located : s.srv.findClient c.id = some c)
    (free : ∀ old ∈ call.old, isInbox old.subject = true →
      Unclaimed s c.id old.subject ∧ InboxFree s.srv c.id old.subject) :
    Inv (s.resumed c (.restore call)) := by
  have bound := inv.clients c.id (by rw [located]; rfl)
  simp only [resumed, subscribeStep]
  split
  · exact inv.proceed called inv.filed (fun _ => id) (fun _ => rfl) (fun _ => rfl) nofun
  next old kept =>
  rcases inv.filed.insert call.env.restore old.subject (old.refOf c.id) rfl with
    ⟨success, filed, refs⟩ | ⟨failed, same⟩
  · rw [if_neg (not_not.mpr success)]
    exact inv.insert rfl bound filed refs (fun _ => rfl) (fun _ => rfl) nofun
      (fun inbox => (free old kept inbox).2) (fun inbox => (free old kept inbox).1)
  rw [if_pos failed]
  have filed := inv.filed
  rw [← same] at filed
  refine inv.proceed called filed (fun _ member => same ▸ member)
    (fun _ => isSome_findClient_map (putClient_id _)) (fun other => ?_) nofun
  have session : ∀ d : CmqClient, d.forceClosing.id = d.id ∧
      d.forceClosing.accountName = d.accountName ∧
      d.forceClosing.accountEpoch = d.accountEpoch := by
    intro d
    unfold CmqClient.forceClosing
    split <;> exact ⟨rfl, rfl, rfl⟩
  obtain ⟨id, name, epoch⟩ := session { c with subs := c.subs.erase old }
  exact liveId_putClient { s.srv with sublist := _ } located _ id name epoch other

lemma Inv.finish (called : s.calls c.id = some (.finish call))
    (located : s.srv.findClient c.id = some c) : Inv (s.resumed c (.finish call)) := by
  simp only [resumed, subscribeStep]
  split
  · exact inv.proceed called inv.filed (fun _ => id) (fun _ => rfl) (fun _ => rfl) nofun
  obtain ⟨filed, refs⟩ := inv.filed.remove call.req.newEntry.subject
    (some (call.req.newEntry.refOf c.id))
  exact inv.proceed called filed refs (fun _ => isSome_findClient_map (putClient_id _))
    (liveId_putClient (s.srv.unfile call.req.newEntry c.id) located
      { c with subs := c.subs.erase call.req.newEntry, state := .closing } rfl rfl rfl) nofun

end Handler

lemma Inv.resume (unraced : s.Unraced (.resume id)) : Inv (s.step (.resume id)) := by
  unfold step
  simp only
  split
  · exact inv
  next pc called =>
  split
  · exact inv
  next c located =>
  have own := id_of_findClient located
  subst own
  simp only [Unraced, called] at unraced
  cases pc with
  | charge call => exact inv.charge called
  | remove call => exact inv.remove called
  | insert call => exact inv.insertNew called located unraced
  | restore call => exact inv.restoreOld called located unraced
  | finish call => exact inv.finish called located

lemma Inv.step (unraced : s.Unraced event) : Inv (s.step event) := by
  cases event with
  | connect c => exact inv.connect c
  | disconnect id => exact inv.disconnect id
  | accounts => exact inv.accounts unraced
  | subscribe id req env => exact inv.subscribe id req env
  | resume id => exact inv.resume unraced
  | unsubscribe id subId => exact inv.unsubscribe id subId

end

lemma inv_start (srv : CmqServer) : Inv (start srv) where
  filed := filed_create
  ids := nofun
  clients := nofun
  exclusive := by
    rintro _ _ _ _ ⟨_, member, -⟩
    cases member
  claims := nofun

end InboxState

/-! ## What a publish delivers -/

lemma target_of_mem_deliverLoop
    (member : d ∈ (deliverLoop env subject frame pubAccount pubEpoch i srv tgts).2) :
    d.target ∈ tgts ∧ deliverTgtAcceptsSubject d.target subject = true := by
  induction tgts generalizing i srv with
  | nil => cases member
  | cons t tgts ih =>
    unfold deliverLoop at member
    split at member
    · exact ⟨mem_cons_of_mem _ (ih member).1, (ih member).2⟩
    next passed =>
    rcases mem_append.mp member with here | later
    · have target : d.target = t := by
        rw [Option.mem_toList, deliverTo] at here
        split at here
        · split at here <;> simp at here
          rw [← here]
        simp only at here
        split at here <;> simp at here
        rw [← here]
      simp only [Bool.or_eq_true, Bool.not_eq_true', not_or, Bool.not_eq_false] at passed
      rw [target]
      exact ⟨mem_cons_self, passed.1.1⟩
    exact ⟨mem_cons_of_mem _ (ih later).1, (ih later).2⟩

lemma Exclusive.oneReceiver (exclusive : Exclusive srv)
    (inbox : isInbox subject = true) : OneReceiver srv subject := by
  intro env _ tgts _ pubAccount pubEpoch payload headers matched snapshot
  have holds : ∀ d ∈ (deliverTargetsSync env srv tgts subject pubAccount pubEpoch payload
      headers).2.1, Holds srv subject d.target.clientId := by
    intro d member
    have located : d.target ∈ tgts ∧ deliverTgtAcceptsSubject d.target subject = true := by
      unfold deliverTargetsSync at member
      split at member
      · cases member
      split at member
      · cases member
      exact target_of_mem_deliverLoop member
    obtain ⟨_, m, inside, found, live, same⟩ := targetOf_of_taken snapshot located.1
    simp only [mem_map, Prod.mk.injEq, and_true, exists_eq_right] at inside
    simp only [refClient, Option.bind_eq_some_iff, Option.map_eq_some_iff] at found
    obtain ⟨ref, rfl, client, foundClient, rfl⟩ := found
    simp only [snapshotLive, Bool.and_eq_true] at live
    have exact : ref.subject = subject := by
      have accepts := located.2
      simpa [deliverTgtAcceptsSubject, inbox, same, cmqFillDeliverTgt] using accepts
    have owner : d.target.clientId = ref.client := by
      rw [same]
      exact id_of_findClient foundClient
    refine ⟨ref, mem_refs_of_match matched inside, exact, owner.symm, ?_⟩
    rw [owner, liveId, foundClient]
    exact live.1
  exact fun first memberFirst second memberSecond =>
    exclusive subject inbox _ _ (holds first memberFirst) (holds second memberSecond)

namespace InboxState

/-- In every run in which no two claims race, every state reached has at most one live holder
of each inbox, and a message on it goes to one client. -/
theorem run_exclusive (srv : CmqServer) (events : List InboxEvent)
    (unraced : Runs.Meets step Unraced (start srv) events) :
    Exclusive (run (start srv) events).srv ∧
      ∀ subject, isInbox subject = true → OneReceiver (run (start srv) events).srv subject := by
  have inv := Runs.Meets.invariant (fun s event (inv : Inv s) => inv.step) (inv_start srv) unraced
  exact ⟨inv.exclusive, fun _ inbox => inv.exclusive.oneReceiver inbox⟩

/-- A client of the account `acc`. -/
def sampleClient : CmqClient := ⟨0, 1, 5, .connected, [], cstr "acc", 1, 0, 0, false, -1⟩

/-- Two clients claim the inbox `_INBOX.a`. -/
def sampleRequest : SubRequest := ⟨1, cstr "_INBOX.a", []⟩

def sampleClaim : List InboxEvent :=
  [.connect sampleClient, .subscribe 1 sampleRequest .granted, .resume 1, .resume 1, .resume 1,
    .resume 1, .connect sampleClient, .subscribe 2 sampleRequest .granted]

/-- The second client is refused. -/
theorem run_exclusive_single :
    Holds (run (start (oneSubscriber (cstr "acc"))) sampleClaim).srv (cstr "_INBOX.a") 1 ∧
      ((run (start (oneSubscriber (cstr "acc"))) sampleClaim).calls 2).isNone = true ∧
      Exclusive (run (start (oneSubscriber (cstr "acc"))) sampleClaim).srv := by
  have alone : Unclaimed (run (start (oneSubscriber (cstr "acc"))) (sampleClaim.take 4)) 1
      (cstr "_INBOX.a") := by
    intro other _ different called
    have idle : (run (start (oneSubscriber (cstr "acc"))) (sampleClaim.take 4)).calls other =
        none :=
      (if_neg different).trans ((if_neg different).trans (if_neg different))
    rw [idle] at called
    cases called
  refine ⟨⟨sampleRequest.newEntry.refOf 1, by decide +kernel, rfl, rfl, by decide +kernel⟩,
    by decide +kernel, (run_exclusive _ _ ?_).1⟩
  exact ⟨trivial, trivial, trivial, trivial, fun _ => alone, trivial, trivial, trivial, trivial⟩

/-- Both handlers make the test before either inserts: both clients have the inbox, and a
message on it goes to both. -/
theorem inbox_claimed_twice :
    let s := run (start (oneSubscriber (cstr "acc")))
      [.connect sampleClient, .connect sampleClient, .subscribe 1 sampleRequest .granted,
        .subscribe 2 sampleRequest .granted, .resume 1, .resume 1, .resume 1, .resume 1,
        .resume 2, .resume 2, .resume 2, .resume 2]
    Holds s.srv (cstr "_INBOX.a") 1 ∧ Holds s.srv (cstr "_INBOX.a") 2 ∧ ¬ Exclusive s.srv ∧
      (deliverTargetsSync .granted s.srv [⟨1, 1, -1, 1, 1, cstr "_INBOX.a", [], cstr "acc"⟩,
          ⟨2, 1, -1, 1, 1, cstr "_INBOX.a", [], cstr "acc"⟩] (cstr "_INBOX.a") (cstr "acc") 1
          [1] []).2.1.map (fun d => d.target.clientId) = [1, 2] := by
  intro s
  have first : Holds s.srv (cstr "_INBOX.a") 1 :=
    ⟨sampleRequest.newEntry.refOf 1, by decide +kernel, rfl, rfl, by decide +kernel⟩
  have second : Holds s.srv (cstr "_INBOX.a") 2 :=
    ⟨sampleRequest.newEntry.refOf 2, by decide +kernel, rfl, rfl, by decide +kernel⟩
  refine ⟨first, second, fun exclusive => ?_, by decide +kernel⟩
  exact absurd (exclusive _ (by decide) 1 2 first second) (by decide)

end InboxState

end CMsgQueue.Server
